import WidgetFlow.Closure
import WidgetFlow.Platform.Classes
import WidgetFlow.Platform.Listeners
import WidgetFlow.Program.Scene

/-!
# The class hierarchy

One table holds the classes of the platform, the interfaces of listeners and the classes of the
program; where names clash the later of these wins. Supertypes may be unknown and may even form
cycles, so subtyping is a closure and the chain of superclasses ends where it would repeat.
-/

namespace WidgetFlow

open Platform.ClassName

/-- A method that a class declares. -/
structure DeclaredMethod where
  target : Target
  isAbstract : Bool
  deriving DecidableEq, Repr, Inhabited

/-- A class of the hierarchy. -/
structure ClassInfo where
  name : String
  superclass : Option String := none
  interfaces : List String := []
  isInterface : Bool := false
  isAbstract : Bool := false
  application : Bool := false
  methods : Std.TreeMap String DeclaredMethod := {}
  deriving Inhabited

def ClassInfo.isConcrete (info : ClassInfo) : Bool := !info.isInterface && !info.isAbstract

/-- The classes that a class directly extends or implements. -/
def ClassInfo.supertypes (info : ClassInfo) : List String := info.superclass.toList ++ info.interfaces

def ClassInfo.ofPlatform (entry : Platform.PlatformClass) : ClassInfo where
  name := entry.name
  superclass := entry.superclass
  interfaces := entry.interfaces
  isInterface := entry.kind = .interface
  isAbstract := entry.kind = .abstract
  methods := .ofList (entry.methods.map fun subsig =>
    (subsig, (⟨.library entry.name subsig, entry.kind = .interface⟩ : DeclaredMethod)))

def ClassInfo.ofListener (entry : Platform.ListenerInterface) : ClassInfo where
  name := entry.name
  isInterface := true
  isAbstract := true
  methods := .ofList (entry.prototypes.map fun prototype =>
    (prototype.subsig, (⟨.library entry.name prototype.subsig, true⟩ : DeclaredMethod)))

/-- The entry of a class of the program. Of two methods with one subsignature the later counts. -/
def ClassInfo.ofDecl (scene : Scene) (decl : ClassDecl) : ClassInfo where
  name := decl.name
  superclass :=
    if decl.isInterface then none else some (decl.superclass.getD object)
  interfaces := decl.interfaces
  isInterface := decl.isInterface
  isAbstract := decl.isAbstract
  application := decl.application
  methods := .ofList ((scene.methodsOf decl.name).map fun id =>
    ((scene.method id).subsig,
      (⟨.app id, (scene.method id).isAbstract || decl.isInterface⟩ : DeclaredMethod)))

/-- The class hierarchy. -/
structure Hierarchy where
  classes : Std.TreeMap String ClassInfo := {}
  /-- The names of the application classes, in order of declaration. -/
  application : List String := []
  deriving Inhabited

namespace Hierarchy

/-- A table with more classes; later entries replace earlier ones of the same name. -/
def enter (table : Std.TreeMap String ClassInfo) (entries : List ClassInfo) :
    Std.TreeMap String ClassInfo :=
  entries.foldl (fun table info => table.insert info.name info) table

def platform : Std.TreeMap String ClassInfo :=
  enter (enter {} (Platform.classes.map ClassInfo.ofPlatform))
    (Platform.listenerInterfaces.map ClassInfo.ofListener)

def ofScene (scene : Scene) : Hierarchy where
  classes := enter platform (scene.classes.map (ClassInfo.ofDecl scene))
  application := (scene.classes.filter ClassDecl.application).map ClassDecl.name

def class? (hierarchy : Hierarchy) (name : String) : Option ClassInfo := hierarchy.classes[name]?

/-- Whether a class is known. -/
def contains (hierarchy : Hierarchy) (name : String) : Bool := hierarchy.classes.contains name

/-- Whether a class belongs to the application. -/
def isApplication (hierarchy : Hierarchy) (name : String) : Bool :=
  (hierarchy.class? name).any ClassInfo.application

def applicationClasses (hierarchy : Hierarchy) : List ClassInfo :=
  hierarchy.application.filterMap hierarchy.class?

/-! ## Subtyping -/

/-- The classes that a class directly extends or implements; none if it is unknown. -/
def supertypes (hierarchy : Hierarchy) (name : String) : List String :=
  match hierarchy.class? name with
  | some info => info.supertypes
  | none => []

/-- All classes that a class extends or implements, itself included. -/
def ancestors (hierarchy : Hierarchy) (name : String) : Std.TreeSet String :=
  closure hierarchy.supertypes (hierarchy.classes.size + 1) [name]

/-- Whether a class is another one, extends it or implements it. -/
def isSubclassOf (hierarchy : Hierarchy) (child parent : String) : Bool :=
  (hierarchy.ancestors child).contains parent

/-- Whether an object of a class may be held by something declared with another. Nothing is known
against a class that the hierarchy does not have. -/
def isCompatible (hierarchy : Hierarchy) (declared owner : String) : Bool :=
  !hierarchy.contains owner || hierarchy.isSubclassOf owner declared

/-- The application classes, other than interfaces, that are subclasses of a class. -/
def appSubtypes (hierarchy : Hierarchy) (parent : String) : List String :=
  (hierarchy.applicationClasses.filter fun info =>
    !info.isInterface && hierarchy.isSubclassOf info.name parent).map ClassInfo.name

/-- The application classes with objects of their own that are subclasses of a class. -/
def concreteAppSubtypes (hierarchy : Hierarchy) (parent : String) : List String :=
  (hierarchy.applicationClasses.filter fun info =>
    info.isConcrete && hierarchy.isSubclassOf info.name parent).map ClassInfo.name

/-! ## Dispatch -/

def superclass? (hierarchy : Hierarchy) (name : String) : Option String :=
  (hierarchy.class? name).bind ClassInfo.superclass

/-- Extends a chain of superclasses, whose last class comes first, as long as nothing repeats. -/
def chainFrom (hierarchy : Hierarchy) : Nat → List String → String → List String
  | 0, below, name => (name :: below).reverse
  | bound + 1, below, name =>
    match hierarchy.superclass? name with
    | some parent =>
      if parent ∈ name :: below then (name :: below).reverse
      else chainFrom hierarchy bound (name :: below) parent
    | none => (name :: below).reverse

/-- A class and its successive superclasses. Every class of the chain but the last is known, so the
size of the table bounds its length. -/
def superclasses (hierarchy : Hierarchy) (name : String) : List String :=
  hierarchy.chainFrom (hierarchy.classes.size + 1) [] name

/-- The target of a method that a class itself declares with a body. -/
def declaredTarget? (hierarchy : Hierarchy) (subsig owner : String) : Option Target := do
  let info ← hierarchy.class? owner
  let method ← info.methods[subsig]?
  if method.isAbstract then none else some method.target

/-- The method that runs when a subsignature is called on an object of a class. -/
def dispatch? (hierarchy : Hierarchy) (subsig owner : String) : Option Target :=
  (hierarchy.superclasses owner).findSome? (hierarchy.declaredTarget? subsig)

def dispatchToApp? (hierarchy : Hierarchy) (subsig owner : String) : Option MethodId :=
  (hierarchy.dispatch? subsig owner).bind Target.app?

/-! ## Kinds of classes -/

/-- Whether objects of a class are views. -/
def isView (hierarchy : Hierarchy) (name : String) : Bool :=
  hierarchy.isSubclassOf name view

/-- Whether objects of a class are menus. -/
def isMenu (hierarchy : Hierarchy) (name : String) : Bool :=
  hierarchy.isSubclassOf name menu

/-- Whether objects of a class are context menus. -/
def isContextMenu (hierarchy : Hierarchy) (name : String) : Bool :=
  hierarchy.isSubclassOf name contextMenu

/-- Whether objects of a class are menu items. -/
def isMenuItem (hierarchy : Hierarchy) (name : String) : Bool :=
  hierarchy.isSubclassOf name menuItem

/-- Whether objects of a class are activities. -/
def isActivity (hierarchy : Hierarchy) (name : String) : Bool :=
  hierarchy.isSubclassOf name activity

/-- Whether objects of a class are dialogs. -/
def isDialog (hierarchy : Hierarchy) (name : String) : Bool :=
  hierarchy.isSubclassOf name dialog

/-- Whether the analysis follows objects of a class. -/
def isGui (hierarchy : Hierarchy) (name : String) : Bool :=
  hierarchy.isView name || hierarchy.isMenu name || hierarchy.isMenuItem name ||
    hierarchy.isActivity name || hierarchy.isDialog name

/-- Whether a class implements some listener's interface. -/
def isListener (hierarchy : Hierarchy) (name : String) : Bool :=
  Platform.listenerInterfaces.any fun entry => hierarchy.isSubclassOf name entry.name

/-- The methods of all listeners' interfaces that a class implements, with their interfaces. -/
def listenerPrototypes (hierarchy : Hierarchy) (name : String) :
    List (String × Platform.Prototype) :=
  (Platform.listenerInterfaces.filter fun entry => hierarchy.isSubclassOf name entry.name).flatMap
    fun entry => entry.prototypes.map fun prototype => (entry.name, prototype)

def registration? (hierarchy : Hierarchy) (call : CallExpr) : Option Platform.Registration :=
  if call.isInstance then
    Platform.registrations.find? fun entry =>
      entry.subsig = call.subsig && hierarchy.isSubclassOf call.method.owner entry.owner
  else none

/-- The methods of the program that the platform calls on an activity, each once. -/
def activityCallbacks (hierarchy : Hierarchy) (activity : String) : List MethodId :=
  (Platform.Method.activityCallbacks.filterMap fun subsig =>
    hierarchy.dispatchToApp? subsig activity).eraseDups

end Hierarchy

end WidgetFlow
