import WidgetFlow.Resource.Layout
import WidgetFlow.Resource.Reference

/-!
# Resources of the platform

The identifiers and layouts of the platform that the analysis relies on when no directory with the
platform's resources is given.
-/

namespace WidgetFlow.Platform

def viewIds : List (String × ResId) := [
  ("content", 0x01020002), ("empty", 0x01020004), ("icon", 0x01020006), ("list", 0x0102000a),
  ("message", 0x0102000b), ("tabcontent", 0x01020011), ("tabhost", 0x01020012),
  ("tabs", 0x01020013), ("text1", 0x01020014), ("text2", 0x01020015), ("title", 0x01020016),
  ("button1", 0x01020019), ("button2", 0x0102001a), ("button3", 0x0102001b),
  ("custom", 0x0102002b), ("parentPanel", 0x0102008a), ("internalEmpty", 0x0102008b),
  ("timePicker", 0x010201a0), ("datePicker", 0x010201a1)]

/-- A tag with a reference and the tags inside it: a layout as it is written. -/
inductive Tag where
  | mk (name : String) (reference : Option String) (children : List Tag)
  deriving Repr, Inhabited

def layouts : List (String × ResId × Tag) := [
  ("simple_list_item_1", 0x01090003, .mk "TextView" (some "@android:id/text1") []),
  ("list_content", 0x01090014, .mk "FrameLayout" none [
    .mk "ListView" (some "@android:id/list") [],
    .mk "TextView" (some "@+android:id/internalEmpty") []]),
  ("list_content_simple", 0x010900a0, .mk "ListView" (some "@android:id/list") []),
  ("alert_dialog", 0x010900a1, .mk "LinearLayout" (some "@+id/parentPanel") [
    .mk "TextView" (some "@android:id/title") [],
    .mk "TextView" (some "@android:id/message") [],
    .mk "FrameLayout" (some "@android:id/custom") [],
    .mk "LinearLayout" none [
      .mk "Button" (some "@android:id/button1") [],
      .mk "Button" (some "@android:id/button3") [],
      .mk "Button" (some "@android:id/button2") []]]),
  ("tab_content", 0x010900a2, .mk "TabHost" (some "@android:id/tabhost") [
    .mk "LinearLayout" none [
      .mk "TabWidget" (some "@android:id/tabs") [],
      .mk "FrameLayout" (some "@android:id/tabcontent") []]]),
  ("tab_indicator", 0x010900a3, .mk "RelativeLayout" none [
    .mk "ImageView" (some "@android:id/icon") [],
    .mk "TextView" (some "@android:id/title") []]),
  ("tab_indicator_holo", 0x010900a4, .mk "LinearLayout" none [
    .mk "ImageView" (some "@android:id/icon") [],
    .mk "TextView" (some "@android:id/title") []]),
  ("time_picker_dialog", 0x010900a5, .mk "FrameLayout" none [
    .mk "TimePicker" (some "@+id/timePicker") []]),
  ("date_picker_dialog", 0x010900a6, .mk "FrameLayout" none [
    .mk "DatePicker" (some "@+id/datePicker") []])]

def idTable : IdTable :=
  layouts.foldl (fun table entry => table.insert .layout entry.1 entry.2.1)
    (viewIds.foldl (fun table entry => table.insert .id entry.1 entry.2) {})

mutual

def Tag.element (origin : String) (declared : Markup.Attributes) : Tag → Element
  | .mk name reference children =>
    { Layout.view (fun reference => (Reference.read {} idTable reference true).value) origin name
        ((reference.map ("android:id", ·)).toList ++ declared) with
      children := Tag.elements origin children }

def Tag.elements (origin : String) : List Tag → List Element
  | [] => []
  | tag :: rest => tag.element origin [] :: Tag.elements origin rest

end

def layoutTrees : List (ResId × Element) :=
  layouts.map fun entry =>
    (entry.2.1, entry.2.2.element ("@android:layout/" ++ entry.1)
      [("xmlns:android", "http://schemas.android.com/apk/res/android")])

end WidgetFlow.Platform
