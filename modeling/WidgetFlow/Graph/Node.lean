import WidgetFlow.Platform.Listeners
import WidgetFlow.Program.Stmt
import WidgetFlow.Text.Quoted
import Std.Data.TreeMap
import Std.Data.TreeSet

/-!
# Nodes of the flow graph

A node stands for a variable or a field, for an object that a variable may hold, for a constant
that names a resource, or for an operation on the user interface. Most nodes are shared: there is
one for each variable, allocation site, identifier, activity class and so on, and `NodeKind.key?`
says what a node is shared by.
-/

namespace WidgetFlow

/-- The position of a node in its graph, in order of creation. -/
abbrev NodeId := Nat

abbrev NodeSet := Std.TreeSet NodeId

/-- A variable of the flow graph. -/
inductive Var where
  | named (method : MethodId) (name : String)
  /-- A variable that stands for a value inside the platform. -/
  | made (number : Nat)
  deriving DecidableEq, Repr, Inhabited

/-- The written form of a variable. -/
def Var.text : Var → String
  | .named method name => name ++ "@m" ++ toString method
  | .made number => "$fake" ++ toString number

/-- What an integer constant names. -/
inductive IdKind where
  | layout
  | menu
  | widget
  | string
  /-- A widget that only appears as a literal. -/
  | anonymous
  deriving DecidableEq, Repr, Inhabited

/-- The name of a kind of identifier in node labels. -/
def IdKind.text : IdKind → String
  | .layout => "Layout"
  | .menu => "Menu"
  | .widget => "Widget"
  | .string => "String"
  | .anonymous => "Anonymous"

/-- What an allocation creates. -/
inductive AllocRole where
  | view
  | listener
  | plain
  deriving DecidableEq, Repr, Inhabited

/-! ## Operations -/

/-- How a look-up by identifier treats an identifier that nothing carries. -/
inductive IdLookup where
  | ordinary
  /-- A menu item's identifier that nothing carries stands for any item. -/
  | menuItem
  deriving DecidableEq, Repr, Inhabited

/-- What a structural look-up gives. -/
inductive TreeLookup where
  | children
  | descendantsAndSelf
  | descendants
  deriving DecidableEq, Repr, Inhabited

/-- The operations on the user interface. -/
inductive OpKind where
  | inflate
  | inflateContent
  /-- Looks a view up by its identifier, below a view or a menu. -/
  | findInView (lookup : IdLookup)
  | findInWindow
  | findByPlace (lookup : TreeLookup)
  /-- Makes a view the content of a window. -/
  | setContent
  | addChild
  /-- Gives a view an identifier. -/
  | setId
  | setListener (event : Platform.Event) (contextMenu : Bool)
  | inflateMenu
  deriving DecidableEq, Repr, Inhabited

namespace OpKind

/-- The name of an operation in node labels. -/
def text : OpKind → String
  | inflate => "Inflate1"
  | inflateContent => "Inflate2"
  | findInView _ => "FindView1"
  | findInWindow => "FindView2"
  | findByPlace _ => "FindView3"
  | setContent => "AddView1"
  | addChild => "AddView2"
  | setId => "SetId"
  | setListener _ _ => "SetListener"
  | inflateMenu => "MenuInflate"

/-- The full name of an operation, which also tells its variant. -/
def name : OpKind → String
  | findInView .ordinary => "FindView1/Ordinary"
  | findInView .menuItem => "FindView1/MenuFindItem"
  | findByPlace .children => "FindView3/Children"
  | findByPlace .descendantsAndSelf => "FindView3/DescendantsAndSelf"
  | findByPlace .descendants => "FindView3/DescendantsNoSelf"
  | setListener event contextMenu =>
    "SetListener/" ++ event.text ++ (if contextMenu then "/context_menu" else "")
  | kind => kind.text

def all : List OpKind :=
  [inflate, inflateContent, findInView .ordinary, findInView .menuItem, findInWindow,
    findByPlace .children, findByPlace .descendantsAndSelf, findByPlace .descendants, setContent,
    addChild, setId, inflateMenu] ++
    Platform.Event.all.flatMap fun event => [setListener event false, setListener event true]

def parse? (name : String) : Option OpKind := all.find? fun kind => kind.name = name

/-- Whether a layout identifier may reach the operation. -/
def takesLayoutId : OpKind → Bool
  | inflate => true
  | inflateContent => true
  | setId => true
  | _ => false

/-- Whether the operation looks views up. -/
def isFind : OpKind → Bool
  | findInView _ => true
  | findInWindow => true
  | findByPlace _ => true
  | _ => false

/-- Whether the operation registers a listener. -/
def isSetListener : OpKind → Bool
  | setListener _ _ => true
  | _ => false

end OpKind

/-- The pattern of calls that an operation was made for. -/
inductive Idiom where
  | addMenuItem
  | getTabHost
  | getListView
  | inflateWithRoot
  | listActivity
  | listAdapter
  | alertDialog
  | tabHost
  | optionsMenu
  deriving DecidableEq, Repr, Inhabited

def Idiom.text : Idiom → String
  | .addMenuItem => "add_menu_item"
  | .getTabHost => "get_tab_host"
  | .getListView => "get_list_view"
  | .inflateWithRoot => "inflate_with_root"
  | .listActivity => "list_activity"
  | .listAdapter => "list_adapter"
  | .alertDialog => "alert_dialog"
  | .tabHost => "tab_host"
  | .optionsMenu => "options_menu"

def Idiom.all : List Idiom :=
  [.addMenuItem, .getTabHost, .getListView, .inflateWithRoot, .listActivity, .listAdapter,
    .alertDialog, .tabHost, .optionsMenu]

def Idiom.parse? (name : String) : Option Idiom := all.find? fun idiom => idiom.text = name

/-- An operation at a call. -/
structure Op where
  kind : OpKind
  receiver : Option NodeId := none
  /-- A variable, or the node of an identifier if the argument is a constant. -/
  parameter : Option NodeId := none
  result : Option NodeId := none
  site : Option StmtId := none
  /-- Whether the operation stands for what the platform does, and not for a call. -/
  artificial : Bool := false
  idiom : Option Idiom := none
  deriving DecidableEq, Repr, Inhabited

/-! ## Handlers -/

/-- A method that handles an event. -/
inductive Handler where
  | method (id : MethodId)
  /-- A synthetic handler of the graph. -/
  | synthetic (index : Nat)
  deriving DecidableEq, Repr, Inhabited

def Handler.rank : Handler → Nat × Nat
  | .method id => (0, id)
  | .synthetic index => (1, index)

/-- A handler that the platform installs by itself and that forwards to a method. -/
structure SyntheticHandler where
  interface : String
  subsig : String
  target : Target
  /-- Which parameter of the handler becomes which parameter of the target. -/
  paramMap : List (Nat × Nat)
  deriving DecidableEq, Repr, Inhabited

/-- The name under which reports show the synthetic handler with a number. -/
def SyntheticHandler.label (index : Nat) : String := "<synthetic_" ++ toString index ++ ">"

/-! ## Nodes -/

/-- What a node stands for. -/
inductive NodeKind where
  | var (var : Var) (ty : Option Ty)
  | field (field : FieldRef)
  | alloc (ty : Ty) (site : StmtId) (role : AllocRole)
  | id (kind : IdKind) (value : ResId)
  | string (text : String)
  /-- A view that inflating a layout creates. -/
  | view (owner : String)
  /-- A menu item, with the attributes that its resource gives it. -/
  | menuItem (owner : String) (attrs : List (String × String))
  | activity (owner : String)
  | dialog (owner : String) (site : StmtId) (cancelable : Bool)
  | optionsMenu (activity : String)
  | contextMenu (filler : MethodId) (menuParam : NodeId) (views : List NodeId)
  | tabSpec (owner : String) (site : StmtId)
  | syntheticListener (index : Nat) (owner : String)
  | op (op : Op)
  deriving DecidableEq, Repr, Inhabited

/-- What a shared node is shared by. -/
inductive NodeKey where
  | var (var : Var)
  | field (field : FieldRef)
  | alloc (site : StmtId)
  | id (kind : IdKind) (value : ResId)
  | string (text : String)
  | activity (owner : String)
  | dialog (site : StmtId)
  | optionsMenu (activity : String)
  | contextMenu (menuParam : NodeId)
  | tabSpec (site : StmtId)
  deriving DecidableEq, Repr, Inhabited

namespace NodeKind

def key? : NodeKind → Option NodeKey
  | .var name _ => some (.var name)
  | .field ref => some (.field ref)
  | .alloc _ site _ => some (.alloc site)
  | .id kind value => some (.id kind value)
  | .string value => some (.string value)
  | .activity owner => some (.activity owner)
  | .dialog _ site _ => some (.dialog site)
  | .optionsMenu owner => some (.optionsMenu owner)
  | .contextMenu _ menuParam _ => some (.contextMenu menuParam)
  | .tabSpec _ site => some (.tabSpec site)
  | _ => none

def op? : NodeKind → Option Op
  | .op found => some found
  | _ => none

def isOp (kind : NodeKind) : Bool := kind.op?.isSome

def isVar : NodeKind → Bool
  | .var _ _ => true
  | _ => false

def isInflated : NodeKind → Bool
  | .view _ => true
  | .menuItem _ _ => true
  | _ => false

def isViewAlloc : NodeKind → Bool
  | .alloc _ _ .view => true
  | _ => false

def isWindow : NodeKind → Bool
  | .activity _ => true
  | .dialog _ _ _ => true
  | _ => false

/-- Whether a node is an object that a variable may hold. -/
def isObject : NodeKind → Bool
  | .alloc _ _ _ => true
  | .view _ => true
  | .menuItem _ _ => true
  | .activity _ => true
  | .dialog _ _ _ => true
  | .optionsMenu _ => true
  | .contextMenu _ _ _ => true
  | .tabSpec _ _ => true
  | .syntheticListener _ _ => true
  | _ => false

/-- The most specific class that is known of an object. -/
def owner? : NodeKind → Option String
  | .alloc ty _ _ => ty.className?
  | .view owner => some owner
  | .menuItem owner _ => some owner
  | .activity owner => some owner
  | .dialog owner _ _ => some owner
  | .tabSpec owner _ => some owner
  | .syntheticListener _ owner => some owner
  | .optionsMenu _ => some Platform.ClassName.menu
  | .contextMenu _ _ _ => some Platform.ClassName.contextMenu
  | _ => none

def idValue? : NodeKind → Option (IdKind × ResId)
  | .id kind value => some (kind, value)
  | _ => none

/-- The declared type of a variable. -/
def varTy? : NodeKind → Option Ty
  | .var _ ty => ty
  | _ => none

/-- The written form of a place in the program. -/
def siteText (site : StmtId) : String :=
  "@m" ++ toString site.method ++ ":" ++ toString site.index

def label : NodeKind → String
  | .var name _ => "VAR[" ++ name.text ++ "]"
  | .field ref => "FLD[" ++ ref.text ++ "]"
  | .alloc ty site _ => "NEW[" ++ ty.text ++ "]" ++ siteText site
  | .id kind value => kind.text ++ "ID[" ++ Text.hexWord value ++ "]"
  | .string value => "STR[" ++ Text.quoted value ++ "]"
  | .view owner => "INFL[" ++ owner ++ "]"
  | .menuItem owner _ => "INFL_ITEM[" ++ owner ++ "]"
  | .activity owner => "ACT[" ++ owner ++ "]"
  | .dialog owner site _ => "DIALOG[" ++ owner ++ "]" ++ siteText site
  | .optionsMenu owner => "OPTIONS_MENU[" ++ owner ++ "]"
  | .contextMenu filler _ _ => "CONTEXT_MENU[m" ++ toString filler ++ "]"
  | .tabSpec _ site => "TAB_SPEC" ++ siteText site
  | .syntheticListener index owner => "SYNTH[" ++ owner ++ "#" ++ toString index ++ "]"
  | .op found =>
    found.kind.text ++ (match found.site with
      | some site => siteText site
      | none => "") ++ (if found.artificial then "*" else "")

end NodeKind

end WidgetFlow
