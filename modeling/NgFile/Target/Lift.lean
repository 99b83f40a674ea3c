import NgFile.Syntax.Parser
import NgFile.Target
import NgFile.Error

/-!
# Lifting a scaffold

A scaffold is parsed, and the parts that a compilation builds on are taken out of
its tree: the imports, the decorator's metadata, and the members of the entity
class.
-/

namespace NgFile

/-- A wording for a syntax error.  It stands in for the messages of a parser, which name the
tokens that it would have taken; no result about a compilation depends on it. -/
def Syntax.SyntaxError.reason (e : Syntax.SyntaxError) : Text :=
  "unexpected token at offset " ++ Text.ofNat e.offset

namespace Syntax

/-- The text that the value of a property covers; the value of a method begins at its parameters. -/
def Property.valueText (source : Text) : Property → Text
  | .pair _ _ value => value.loc.text source
  | .shorthand _ name _ => name.loc.text source
  | .method _ _ _ function => function.loc.text source
  | .spread _ argument => argument.loc.text source

def Property.static? : Property → Option Text
  | .pair _ key _ => key.static?
  | .shorthand _ name _ => some name.text
  | .method _ _ key _ => key.static?
  | .spread _ _ => none

end Syntax

open Syntax in
def callOf? (name : Text) : Expr → Option (List Expr)
  | .call _ (.ident _ callee) false _ args _ _ => if callee = name then some args else none
  | _ => none

namespace TargetClass

open Syntax

/-- Parentheses around a text dropped, if both are there. -/
def stripParens (t : Text) : Text :=
  match t with
  | '(' :: rest =>
      match rest.getLast? with
      | some ')' => rest.dropLast
      | _ => t
  | t => t

/-- The metadata that an object literal holds; a later entry of the same key overwrites. -/
def liftMetadata? (source : Text) (properties : List Property) : Option Metadata :=
  (properties.mapM fun (p : Property) =>
    p.static?.map fun key => (⟨key, p.valueText source⟩ : MetadataEntry)).map Metadata.ofEntries

def statementTexts (source : Text) (function : Func) : List Text :=
  function.statements.map fun s => s.loc.text source

def scopeOf : Option Accessibility → Scope
  | some .isProtected => .isProtected
  | some .isPrivate => .isPrivate
  | _ => .isPublic

def liftProperty? (source : Text) : Member → Option ClassProperty
  | .field _ _ modifiers key _ _ _ value =>
      if modifiers.isAccessor then none
      else
        key.static?.map fun name =>
          ⟨scopeOf modifiers.accessibility, name, value.map fun v => v.loc.text source⟩
  | _ => none

def liftMethod? (source : Text) : Member → Option ClassMethod
  | .method _ _ _ kind key _ function =>
      if kind = .constructor then none
      else
        key.static?.map fun name =>
          ⟨name, stripParens (function.paramsLoc.text source), statementTexts source function⟩
  | _ => none

def constructor? : Member → Option Func
  | .method _ _ _ .constructor _ _ function => some function
  | _ => none

/-- The statements of the last constructor; every constructor must have a body. -/
def liftConstructor? (source : Text) (members : List Member) : Option (List Text) :=
  let constructors := members.filterMap constructor?
  if constructors.all Func.hasBody then constructors.getLast?.map (statementTexts source)
  else none

def ofClass (file source : Text) (kind : EntityKind) (c : Syntax.Class) :
    Except CompileError TargetClass :=
  match c.decorators.findSome? (callOf? kind.decoratorName) with
  | none => .error (.missingDecorator file)
  | some args =>
      match args with
      | .object _ properties :: _ =>
          match liftMetadata? source properties with
          | none => .error (.invalidMetadataArguments file)
          | some metadata =>
              match liftConstructor? source c.members with
              | none => .error (.invalidConstructorBody file)
              | some body =>
                  .ok
                    { name := entityClassName
                      decorator := kind.decoratorName
                      metadata := metadata
                      properties := c.members.filterMap (liftProperty? source)
                      constructorBody := body
                      methods := c.members.filterMap (liftMethod? source) }
      | _ => .error (.invalidMetadataArguments file)

end TargetClass

namespace Target

open Syntax

def importText? (source : Text) : Stmt → Option Text
  | .importDecl loc _ => some (loc.text source)
  | _ => none

/-- The entity class that a statement declares or exports as the default. -/
def entityClass? : Stmt → Option Syntax.Class
  | .classDecl _ c | .exportDefault _ (.classDecl _ c) =>
      if c.name.map Syntax.Name.text = some entityClassName then some c else none
  | _ => none

/-- Lift the statements of a scaffold; the last entity class counts. -/
def ofStatements (file source : Text) (kind : EntityKind) (statements : List Stmt) :
    Except CompileError Target :=
  match (statements.filterMap entityClass?).mapM (TargetClass.ofClass file source kind) with
  | .error e => .error e
  | .ok classes =>
      match classes.getLast? with
      | none => .error (.missingClass file)
      | some entity =>
          .ok
            { fileName := file
              kind := kind
              importTexts := statements.filterMap (importText? source)
              entity := entity }

def ofScaffold (file scaffold : Text) (kind : EntityKind) : Except CompileError Target :=
  match Program.parse scaffold with
  | .error e => .error (.missingSourceFile file e.reason)
  | .ok program => ofStatements file scaffold kind program.body

end Target

end NgFile
