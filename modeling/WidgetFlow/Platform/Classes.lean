import WidgetFlow.Platform.Names

/-!
# Classes of the platform

What the analysis needs to know of the platform's classes: their supertypes, and the methods that
the platform calls and a program may override. The interfaces of listeners have a table of their
own.
-/

namespace WidgetFlow.Platform

open ClassName Method

/-- Whether a class can have objects of its own. -/
inductive ClassKind where
  | concrete
  | abstract
  | interface
  deriving DecidableEq, Repr, Inhabited

/-- A class of the platform. -/
structure PlatformClass where
  name : String
  superclass : Option String := none
  interfaces : List String := []
  kind : ClassKind := .concrete
  /-- The subsignatures of the declared methods. -/
  methods : List String := []
  deriving DecidableEq, Repr, Inhabited

def viewMethods : List String := [
  onFinishInflate, viewOnCreateContextMenu,
  "boolean onTouchEvent(android.view.MotionEvent)", "void onAttachedToWindow()",
  "void onDetachedFromWindow()", "void onDraw(android.graphics.Canvas)"]

def dialogMethods : List String := [
  "void onCreate(android.os.Bundle)", "void onStart()", "void onStop()",
  "void onAttachedToWindow()", "void onDetachedFromWindow()", "void onBackPressed()",
  "void show()", "void dismiss()", "void cancel()"]

def basicClasses : List PlatformClass := [
  { name := object, methods := ["java.lang.String toString()", "void <init>()"] },
  { name := string, superclass := some object,
    interfaces := [charSequence] },
  { name := charSequence, kind := .interface },
  { name := runnable, kind := .interface, methods := [run] },
  { name := "java.lang.Thread", superclass := some object,
    interfaces := [runnable], methods := [run] },
  { name := "android.os.Handler", superclass := some object },
  { name := "android.os.Bundle", superclass := some object },
  { name := "android.content.Intent", superclass := some object }]

def activityClasses : List PlatformClass := [
  { name := "android.content.Context", superclass := some object, kind := .abstract },
  { name := "android.content.ContextWrapper", superclass := some "android.content.Context" },
  { name := "android.view.ContextThemeWrapper",
    superclass := some "android.content.ContextWrapper" },
  { name := activity, superclass := some "android.view.ContextThemeWrapper",
    interfaces := [
    "android.view.Window$Callback", "android.view.KeyEvent$Callback",
    onCreateContextMenuListener],
    methods := activityCallbacks },
  { name := "android.app.ActivityGroup", superclass := some activity },
  { name := tabActivity, superclass := some "android.app.ActivityGroup" },
  { name := listActivity, superclass := some activity,
    methods := [onListItemClick] },
  { name := preferenceActivity, superclass := some listActivity },
  { name := "android.app.ExpandableListActivity", superclass := some activity },
  { name := "android.view.Window$Callback", kind := .interface },
  { name := "android.view.KeyEvent$Callback", kind := .interface }]

def dialogClasses : List PlatformClass := [
  { name := dialogInterface, kind := .interface },
  { name := dialog, superclass := some object,
    interfaces := [
    dialogInterface, "android.view.Window$Callback", "android.view.KeyEvent$Callback",
    onCreateContextMenuListener],
    methods := dialogMethods },
  { name := alertDialog, superclass := some dialog,
    interfaces := [dialogInterface] },
  { name := alertDialogBuilder, superclass := some object },
  { name := "android.app.ProgressDialog", superclass := some alertDialog },
  { name := "android.app.CharacterPickerDialog", superclass := some dialog },
  { name := timePickerDialog, superclass := some alertDialog,
    interfaces := ["android.content.DialogInterface$OnClickListener"],
    methods := [dialogOnClick] },
  { name := datePickerDialog, superclass := some alertDialog,
    interfaces := ["android.content.DialogInterface$OnClickListener"],
    methods := [dialogOnClick] }]

def menuClasses : List PlatformClass := [
  { name := menu, kind := .interface },
  { name := contextMenu, interfaces := [menu], kind := .interface },
  { name := "android.view.SubMenu", interfaces := [menu], kind := .interface },
  { name := menuItem, kind := .interface },
  { name := "android.view.ContextMenu$ContextMenuInfo", kind := .interface },
  { name := menuInflater, superclass := some object },
  { name := layoutInflater, superclass := some object, kind := .abstract },
  { name := window, superclass := some object, kind := .abstract }]

def viewClasses : List PlatformClass := [
  { name := view, superclass := some object,
    interfaces := ["android.view.KeyEvent$Callback"], methods := viewMethods },
  { name := viewGroup, superclass := some view, kind := .abstract },
  { name := "android.view.SurfaceView", superclass := some view },
  { name := "android.view.TextureView", superclass := some view },
  { name := "android.view.ViewStub", superclass := some view },
  { name := "android.widget.TextView", superclass := some view },
  { name := button, superclass := some "android.widget.TextView" },
  { name := "android.widget.EditText", superclass := some "android.widget.TextView" },
  { name := "android.widget.AutoCompleteTextView", superclass := some "android.widget.EditText" },
  { name := "android.widget.MultiAutoCompleteTextView",
    superclass := some "android.widget.AutoCompleteTextView" },
  { name := "android.widget.CheckedTextView", superclass := some "android.widget.TextView" },
  { name := "android.widget.Chronometer", superclass := some "android.widget.TextView" },
  { name := "android.widget.DigitalClock", superclass := some "android.widget.TextView" },
  { name := "android.widget.CompoundButton", superclass := some button,
    kind := .abstract },
  { name := "android.widget.CheckBox", superclass := some "android.widget.CompoundButton" },
  { name := "android.widget.RadioButton", superclass := some "android.widget.CompoundButton" },
  { name := "android.widget.ToggleButton", superclass := some "android.widget.CompoundButton" },
  { name := "android.widget.Switch", superclass := some "android.widget.CompoundButton" },
  { name := "android.widget.ImageView", superclass := some view },
  { name := "android.widget.ImageButton", superclass := some "android.widget.ImageView" },
  { name := "android.widget.ZoomButton", superclass := some "android.widget.ImageButton" },
  { name := "android.widget.QuickContactBadge", superclass := some "android.widget.ImageView" },
  { name := "android.widget.ProgressBar", superclass := some view },
  { name := "android.widget.AbsSeekBar", superclass := some "android.widget.ProgressBar",
    kind := .abstract },
  { name := "android.widget.SeekBar", superclass := some "android.widget.AbsSeekBar" },
  { name := "android.widget.RatingBar", superclass := some "android.widget.AbsSeekBar" },
  { name := "android.widget.AnalogClock", superclass := some view },
  { name := "android.widget.Space", superclass := some view },
  { name := "android.widget.VideoView", superclass := some "android.view.SurfaceView" }]

/-- Views that arrange other views. -/
def layoutClasses : List PlatformClass := [
  { name := linearLayout, superclass := some viewGroup },
  { name := "android.widget.RelativeLayout", superclass := some viewGroup },
  { name := frameLayout, superclass := some viewGroup },
  { name := "android.widget.AbsoluteLayout", superclass := some viewGroup },
  { name := "android.widget.GridLayout", superclass := some viewGroup },
  { name := "android.widget.TableLayout", superclass := some linearLayout },
  { name := "android.widget.TableRow", superclass := some linearLayout },
  { name := "android.widget.RadioGroup", superclass := some linearLayout },
  { name := tabWidget, superclass := some linearLayout },
  { name := "android.widget.NumberPicker", superclass := some linearLayout },
  { name := "android.widget.SearchView", superclass := some linearLayout },
  { name := "android.widget.ZoomControls", superclass := some linearLayout },
  { name := "android.widget.ScrollView", superclass := some frameLayout },
  { name := "android.widget.HorizontalScrollView", superclass := some frameLayout },
  { name := tabHost, superclass := some frameLayout },
  { name := "android.widget.TimePicker", superclass := some frameLayout },
  { name := "android.widget.DatePicker", superclass := some frameLayout },
  { name := "android.widget.CalendarView", superclass := some frameLayout },
  { name := "android.widget.MediaController", superclass := some frameLayout },
  { name := "android.widget.ViewAnimator", superclass := some frameLayout },
  { name := "android.widget.ViewFlipper", superclass := some "android.widget.ViewAnimator" },
  { name := "android.widget.ViewSwitcher", superclass := some "android.widget.ViewAnimator" },
  { name := "android.widget.TextSwitcher", superclass := some "android.widget.ViewSwitcher" },
  { name := "android.widget.ImageSwitcher", superclass := some "android.widget.ViewSwitcher" },
  { name := "android.webkit.WebView", superclass := some "android.widget.AbsoluteLayout" }]

def adapterViewClasses : List PlatformClass := [
  { name := adapterView, superclass := some viewGroup, kind := .abstract },
  { name := "android.widget.AbsListView", superclass := some adapterView,
    kind := .abstract },
  { name := listView, superclass := some "android.widget.AbsListView" },
  { name := gridView, superclass := some "android.widget.AbsListView" },
  { name := "android.widget.ExpandableListView", superclass := some listView },
  { name := "android.widget.AbsSpinner", superclass := some adapterView,
    kind := .abstract },
  { name := "android.widget.Spinner", superclass := some "android.widget.AbsSpinner" },
  { name := "android.widget.Gallery", superclass := some "android.widget.AbsSpinner" }]

def adapterClasses : List PlatformClass := [
  { name := "android.widget.Adapter", kind := .interface },
  { name := listAdapter, interfaces := ["android.widget.Adapter"], kind := .interface },
  { name := "android.widget.SpinnerAdapter", interfaces := ["android.widget.Adapter"],
    kind := .interface },
  { name := baseAdapter, superclass := some object,
    interfaces := [listAdapter, "android.widget.SpinnerAdapter"], kind := .abstract },
  { name := arrayAdapter, superclass := some baseAdapter,
    methods := [getView] },
  { name := "android.widget.SimpleAdapter", superclass := some baseAdapter,
    methods := [getView] },
  { name := "android.widget.CursorAdapter", superclass := some baseAdapter,
    kind := .abstract, methods := [getView] },
  { name := "android.widget.ResourceCursorAdapter",
    superclass := some "android.widget.CursorAdapter", kind := .abstract },
  { name := "android.widget.SimpleCursorAdapter",
    superclass := some "android.widget.ResourceCursorAdapter" }]

def tabClasses : List PlatformClass := [
  { name := tabSpec, superclass := some object },
  { name := tabContentFactory, kind := .interface,
    methods := [createTabContent] },
  { name := "android.widget.Toast", superclass := some object }]

def classes : List PlatformClass :=
  basicClasses ++ activityClasses ++ dialogClasses ++ menuClasses ++ viewClasses ++ layoutClasses ++
    adapterViewClasses ++ adapterClasses ++ tabClasses

def class? (name : String) : Option PlatformClass := classes.find? fun entry => entry.name = name

end WidgetFlow.Platform
