import WidgetFlow.Platform.Names

/-!
# Listeners

Which calls register a listener, for which event and on which view; which methods of a listener's
interface the platform then calls; and which of their parameters is the view.
-/

namespace WidgetFlow.Platform

open ClassName

/-- An event of the user interface. -/
inductive Event where
  | click
  | longClick
  | touch
  | key
  | focusChange
  | itemClick
  | itemLongClick
  | itemSelected
  | checkChanged
  | editorAction
  | drag
  | scroll
  | createContextMenu
  | dialogClick
  | dialogCancel
  | dialogDismiss
  | dialogKey
  | dialogShow
  | menuItemClick
  | tabChange
  | textChanged
  /-- The platform creates a context menu when the user presses a view for long. -/
  | implicitCreateContextMenu
  deriving DecidableEq, Repr, Inhabited

def Event.text : Event → String
  | .click => "click"
  | .longClick => "long_click"
  | .touch => "touch"
  | .key => "key"
  | .focusChange => "focus_change"
  | .itemClick => "item_click"
  | .itemLongClick => "item_long_click"
  | .itemSelected => "item_selected"
  | .checkChanged => "check_changed"
  | .editorAction => "editor_action"
  | .drag => "drag"
  | .scroll => "scroll"
  | .createContextMenu => "create_context_menu"
  | .dialogClick => "dialog_click"
  | .dialogCancel => "dialog_cancel"
  | .dialogDismiss => "dialog_dismiss"
  | .dialogKey => "dialog_key"
  | .dialogShow => "dialog_show"
  | .menuItemClick => "menu_item_click"
  | .tabChange => "tab_change"
  | .textChanged => "text_changed"
  | .implicitCreateContextMenu => "implicit_create_context_menu"

def Event.all : List Event := [.click, .longClick, .touch, .key, .focusChange,
  .itemClick, .itemLongClick, .itemSelected, .checkChanged, .editorAction,
  .drag, .scroll, .createContextMenu, .dialogClick, .dialogCancel,
  .dialogDismiss, .dialogKey, .dialogShow, .menuItemClick, .tabChange,
  .textChanged, .implicitCreateContextMenu]

def Event.rank (event : Event) : Nat := Event.all.idxOf event

/-- Whether the platform raises the event by itself, without a listener for it. -/
def Event.isImplicit : Event → Bool
  | .implicitCreateContextMenu => true
  | _ => false

/-- Where a value stands in a call. -/
inductive Slot where
  | receiver
  | arg (index : Nat)
  deriving DecidableEq, Repr, Inhabited

/-- A method that registers a listener. -/
structure Registration where
  /-- The class that declares the method. -/
  owner : String
  subsig : String
  interface : String
  event : Event
  /-- Where the view stands that the listener is for. -/
  view : Slot := .receiver
  listener : Slot := .arg 0
  deriving DecidableEq, Repr, Inhabited

def Registration.isContextMenu (registration : Registration) : Bool :=
  registration.interface == onCreateContextMenuListener

/-- A method of a listener's interface. -/
structure Prototype where
  subsig : String
  /-- The parameter that holds the view. -/
  viewAt : Option Nat
  deriving DecidableEq, Repr, Inhabited

/-- A listener's interface. -/
structure ListenerInterface where
  name : String
  prototypes : List Prototype
  deriving DecidableEq, Repr, Inhabited

def listenerInterfaces : List ListenerInterface := [
  ⟨onClickListener, [⟨Method.viewOnClick, some 0⟩]⟩,
  ⟨"android.view.View$OnLongClickListener", [⟨"boolean onLongClick(android.view.View)", some 0⟩]⟩,
  ⟨"android.view.View$OnTouchListener", [
    ⟨"boolean onTouch(android.view.View,android.view.MotionEvent)", some 0⟩]⟩,
  ⟨"android.view.View$OnKeyListener", [
    ⟨"boolean onKey(android.view.View,int,android.view.KeyEvent)", some 0⟩]⟩,
  ⟨"android.view.View$OnFocusChangeListener", [
    ⟨"void onFocusChange(android.view.View,boolean)", some 0⟩]⟩,
  ⟨onCreateContextMenuListener, [⟨Method.onCreateContextMenu, some 1⟩]⟩,
  ⟨"android.view.View$OnDragListener", [
    ⟨"boolean onDrag(android.view.View,android.view.DragEvent)", some 0⟩]⟩,
  ⟨onItemClickListener, [⟨Method.onItemClick, some 0⟩]⟩,
  ⟨"android.widget.AdapterView$OnItemLongClickListener", [
    ⟨"boolean onItemLongClick(android.widget.AdapterView,android.view.View,int,long)", some 0⟩]⟩,
  ⟨"android.widget.AdapterView$OnItemSelectedListener", [
    ⟨"void onItemSelected(android.widget.AdapterView,android.view.View,int,long)", some 0⟩,
    ⟨"void onNothingSelected(android.widget.AdapterView)", some 0⟩]⟩,
  ⟨"android.widget.CompoundButton$OnCheckedChangeListener", [
    ⟨"void onCheckedChanged(android.widget.CompoundButton,boolean)", some 0⟩]⟩,
  ⟨"android.widget.RadioGroup$OnCheckedChangeListener", [
    ⟨"void onCheckedChanged(android.widget.RadioGroup,int)", some 0⟩]⟩,
  ⟨"android.widget.TextView$OnEditorActionListener", [
    ⟨"boolean onEditorAction(android.widget.TextView,int,android.view.KeyEvent)", some 0⟩]⟩,
  ⟨"android.widget.AbsListView$OnScrollListener", [
    ⟨"void onScroll(android.widget.AbsListView,int,int,int)", some 0⟩,
    ⟨"void onScrollStateChanged(android.widget.AbsListView,int)", some 0⟩]⟩,
  ⟨"android.view.MenuItem$OnMenuItemClickListener", [
    ⟨"boolean onMenuItemClick(android.view.MenuItem)", some 0⟩]⟩,
  ⟨"android.widget.TabHost$OnTabChangeListener", [⟨"void onTabChanged(java.lang.String)", none⟩]⟩,
  ⟨"android.text.TextWatcher", [
    ⟨"void afterTextChanged(android.text.Editable)", none⟩,
    ⟨"void beforeTextChanged(java.lang.CharSequence,int,int,int)", none⟩,
    ⟨"void onTextChanged(java.lang.CharSequence,int,int,int)", none⟩]⟩,
  ⟨"android.content.DialogInterface$OnClickListener", [⟨Method.dialogOnClick, some 0⟩]⟩,
  ⟨"android.content.DialogInterface$OnCancelListener", [
    ⟨"void onCancel(android.content.DialogInterface)", some 0⟩]⟩,
  ⟨"android.content.DialogInterface$OnDismissListener", [
    ⟨"void onDismiss(android.content.DialogInterface)", some 0⟩]⟩,
  ⟨"android.content.DialogInterface$OnKeyListener", [
    ⟨"boolean onKey(android.content.DialogInterface,int,android.view.KeyEvent)", some 0⟩]⟩,
  ⟨"android.content.DialogInterface$OnShowListener", [
    ⟨"void onShow(android.content.DialogInterface)", some 0⟩]⟩]

def registrations : List Registration := [
  { owner := view,
    subsig := "void setOnClickListener(android.view.View$OnClickListener)",
    interface := onClickListener, event := .click },
  { owner := view,
    subsig := "void setOnLongClickListener(android.view.View$OnLongClickListener)",
    interface := "android.view.View$OnLongClickListener", event := .longClick },
  { owner := view,
    subsig := "void setOnTouchListener(android.view.View$OnTouchListener)",
    interface := "android.view.View$OnTouchListener", event := .touch },
  { owner := view,
    subsig := "void setOnKeyListener(android.view.View$OnKeyListener)",
    interface := "android.view.View$OnKeyListener", event := .key },
  { owner := view,
    subsig := "void setOnFocusChangeListener(android.view.View$OnFocusChangeListener)",
    interface := "android.view.View$OnFocusChangeListener", event := .focusChange },
  { owner := view,
    subsig := "void setOnCreateContextMenuListener(android.view.View$OnCreateContextMenuListener)",
    interface := onCreateContextMenuListener, event := .implicitCreateContextMenu },
  { owner := view,
    subsig := "void setOnDragListener(android.view.View$OnDragListener)",
    interface := "android.view.View$OnDragListener", event := .drag },
  { owner := adapterView,
    subsig := "void setOnItemClickListener(android.widget.AdapterView$OnItemClickListener)",
    interface := onItemClickListener, event := .itemClick },
  { owner := adapterView,
    subsig := "void setOnItemLongClickListener(android.widget.AdapterView$OnItemLongClickListener)",
    interface := "android.widget.AdapterView$OnItemLongClickListener", event := .itemLongClick },
  { owner := adapterView,
    subsig := "void setOnItemSelectedListener(android.widget.AdapterView$OnItemSelectedListener)",
    interface := "android.widget.AdapterView$OnItemSelectedListener", event := .itemSelected },
  { owner := "android.widget.CompoundButton",
    subsig := "void setOnCheckedChangeListener(android.widget.CompoundButton$OnCheckedChangeListener)",
    interface := "android.widget.CompoundButton$OnCheckedChangeListener", event := .checkChanged },
  { owner := "android.widget.RadioGroup",
    subsig := "void setOnCheckedChangeListener(android.widget.RadioGroup$OnCheckedChangeListener)",
    interface := "android.widget.RadioGroup$OnCheckedChangeListener", event := .checkChanged },
  { owner := "android.widget.TextView",
    subsig := "void setOnEditorActionListener(android.widget.TextView$OnEditorActionListener)",
    interface := "android.widget.TextView$OnEditorActionListener", event := .editorAction },
  { owner := "android.widget.TextView",
    subsig := "void addTextChangedListener(android.text.TextWatcher)",
    interface := "android.text.TextWatcher", event := .textChanged },
  { owner := "android.widget.AbsListView",
    subsig := "void setOnScrollListener(android.widget.AbsListView$OnScrollListener)",
    interface := "android.widget.AbsListView$OnScrollListener", event := .scroll },
  { owner := menuItem,
    subsig := "android.view.MenuItem setOnMenuItemClickListener(android.view.MenuItem$OnMenuItemClickListener)",
    interface := "android.view.MenuItem$OnMenuItemClickListener", event := .menuItemClick },
  { owner := tabHost,
    subsig := "void setOnTabChangedListener(android.widget.TabHost$OnTabChangeListener)",
    interface := "android.widget.TabHost$OnTabChangeListener", event := .tabChange },
  { owner := activity,
    subsig := "void registerForContextMenu(android.view.View)",
    interface := onCreateContextMenuListener, event := .implicitCreateContextMenu,
    view := .arg 0, listener := .receiver }]

def listenerInterface? (name : String) : Option ListenerInterface :=
  listenerInterfaces.find? fun entry => entry.name = name

/-- The methods of a listener's interface; none if the name is not that of one. -/
def prototypes (interface : String) : List Prototype :=
  match listenerInterface? interface with
  | some entry => entry.prototypes
  | none => []

/-- The parameter that holds the view in a method of a listener's interface. -/
def viewPosition? (interface subsig : String) : Option Nat :=
  ((prototypes interface).find? fun entry => entry.subsig = subsig).bind Prototype.viewAt

end WidgetFlow.Platform
