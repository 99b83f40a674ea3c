import NgFile.Scaffold

/-!
# The target of a compilation

The generated file as an owned tree: its imports and the one class in it.  A
scaffold is lifted into this tree, the script is promoted into it, and the tree
is written out.  Every list in it only grows at its end.
-/

namespace NgFile

inductive Scope
  | isPublic
  | isProtected
  | isPrivate
  deriving DecidableEq

def Scope.keyword? : Scope → Option Text
  | isPublic => none
  | isProtected => some "protected"
  | isPrivate => some "private"

structure ClassProperty where
  scope : Scope
  name : Text
  initializer : Option Text
  deriving DecidableEq

namespace ClassProperty

def declared (name : Text) : ClassProperty :=
  ⟨.isProtected, name, none⟩

def initialized (name initializer : Text) : ClassProperty :=
  ⟨.isProtected, name, some initializer⟩

end ClassProperty

structure ClassMethod where
  name : Text
  params : Text
  statements : List Text
  deriving DecidableEq

/-- The class of a target; statements are source texts. -/
structure TargetClass where
  name : Text
  decorator : Text
  metadata : Metadata
  properties : List ClassProperty
  constructorBody : List Text
  methods : List ClassMethod
  deriving DecidableEq

namespace TargetClass

def addProperty (c : TargetClass) (property : ClassProperty) : TargetClass :=
  { c with properties := c.properties ++ [property] }

def addStatement (c : TargetClass) (statement : Text) : TargetClass :=
  { c with constructorBody := c.constructorBody ++ [statement] }

def addMethod (c : TargetClass) (method : ClassMethod) : TargetClass :=
  { c with methods := c.methods ++ [method] }

end TargetClass

/-- The file that a compilation builds. -/
structure Target where
  fileName : Text
  kind : EntityKind
  importTexts : List Text
  entity : TargetClass
  deriving DecidableEq

namespace Target

def addImport (t : Target) (text : Text) : Target :=
  { t with importTexts := t.importTexts ++ [text] }

def mapEntity (t : Target) (f : TargetClass → TargetClass) : Target :=
  { t with entity := f t.entity }

end Target

end NgFile
