import NgFile.Target.Lift

/-!
# Script items

Each top-level statement of a script is classified by what becomes of it: an import
to copy, a declaration to promote, metadata to merge, a hook, a call to keep, or
something to leave out.  All texts in an item are slices of the script.
-/

namespace NgFile

/-- One top-level statement of a script. -/
inductive ScriptItem
  /-- An import, with its default binding. -/
  | importDecl (text : Text) (defaultImport : Option Text) (fromNgFile : Bool)
  /-- A variable with a value; `keyword` declares it, and `declarator` is all behind that. -/
  | variableDecl (keyword name declarator : Text) (isFunction : Bool)
  | functionDecl (name text : Text)
  | defineMetadata (entries : List MetadataEntry)
  | onInit (isAsync : Bool) (statements : List Text)
  | call (text : Text)
  /-- A statement that has no place in the class. -/
  | other (text : Text)
  deriving DecidableEq

namespace ScriptItem

open Syntax

def fileExtension : Text := ".ng"

def metadataFunction : Text := "defineMetadata"

def hookFunction : Text := "onInit"

/-- A statement's text with a semicolon at its end, unless a semicolon or brace ends it. -/
def terminated (text : Text) : Text :=
  let kept := Text.trimEnd text
  if Text.finishesWith ";" kept || Text.finishesWith "\x7d" kept then kept
  else kept ++ [';']

def quoted (text : Text) : Text :=
  Text.graveAccent :: (text ++ [Text.graveAccent])

/-- Whether an expression is a function or an arrow function, without parentheses around it. -/
def isFunction : Expr → Bool
  | .arrow _ _ _ | .function _ _ => true
  | _ => false

def ofImport (source : Text) (loc : Loc) (decl : ImportDecl) : ScriptItem :=
  let default := decl.clause.bind ImportClause.default
  .importDecl (loc.text source) (default.map fun name => name.loc.text source)
    (Text.finishesWith fileExtension decl.source.value.text)

/-- A declaration of variables: a single one, bound to a name. -/
def ofVariables (file source : Text) (loc : Loc) (kind : VariableKind)
    (bindings : List Binding) : Except CompileError ScriptItem :=
  let text := loc.text source
  match bindings with
  | [binding] =>
      match binding.pattern with
      | .name name =>
          match binding.value with
          | none => .ok (.other text)
          | some value =>
              .ok (.variableDecl kind.text (name.loc.text source) (binding.loc.text source)
                (isFunction value))
      | _ =>
          .error (.unsupportedDeclaration file
            ("destructuring is not supported in " ++ quoted text))
  | _ =>
      .error (.unsupportedDeclaration file ("expected a single declarator in " ++ quoted text))

/-- A function declaration with a body; it must have a name. -/
def ofFunction (file source : Text) (loc : Loc) (function : Func) :
    Except CompileError ScriptItem :=
  match function.name with
  | some name => .ok (.functionDecl (name.loc.text source) (loc.text source))
  | none => .error (.unsupportedDeclaration file "anonymous function declaration")

def ofProperty (file source : Text) (property : Property) : Except CompileError MetadataEntry :=
  let invalid (detail : Text) : Except CompileError MetadataEntry :=
    .error (.invalidDefineMetadata file detail)
  match property with
  | .spread _ _ => invalid "spread entries are not supported"
  | .method _ _ _ _ => invalid "method and accessor entries are not supported"
  | property =>
      match property.static? with
      | some key => .ok ⟨key, property.valueText source⟩
      | none => invalid "computed keys are not supported"

def ofMetadataCall (file source : Text) (args : List Expr) :
    Except CompileError (List MetadataEntry) :=
  match args with
  | [.object _ properties] => properties.mapM (ofProperty file source)
  | _ => .error (.invalidDefineMetadata file "expected exactly one object literal argument")

/-- The hook that an arrow function gives; a concise body becomes a statement. -/
def ofHook (source : Text) (function : Func) (concise : Bool) : ScriptItem :=
  .onInit function.isAsync
    ((TargetClass.statementTexts source function).map fun text =>
      if concise then terminated text else text)

def ofCall (file source : Text) (loc : Loc) (callee : Expr) (args : List Expr) :
    Except CompileError ScriptItem :=
  let name := callee.loc.text source
  if name = metadataFunction then
    (ofMetadataCall file source args).map .defineMetadata
  else
    match args with
    | [.arrow _ function concise] =>
        if name = hookFunction then .ok (ofHook source function concise)
        else .ok (.call (loc.text source))
    | _ => .ok (.call (loc.text source))

def ofStatement (file source : Text) (statement : Stmt) : Except CompileError ScriptItem :=
  match statement with
  | .importDecl loc decl => .ok (ofImport source loc decl)
  | .variableDecl loc kind _ bindings => ofVariables file source loc kind bindings
  | .function loc _ function =>
      if function.hasBody then ofFunction file source loc function
      else .ok (.other (loc.text source))
  | .exportDecl loc declaration =>
      match declaration with
      | .variableDecl loc kind _ bindings => ofVariables file source loc kind bindings
      | .function inner _ function =>
          if function.hasBody then ofFunction file source inner function
          else .ok (.other (loc.text source))
      | _ => .ok (.other (loc.text source))
  | .expression loc (.call _ callee false _ args _ _) => ofCall file source loc callee args
  | statement => .ok (.other (statement.loc.text source))

/-- The items of a script, in order; the first statement that cannot be classified decides. -/
def classify (file script : Text) : Except CompileError (List ScriptItem) :=
  match Program.parse script with
  | .error e => .error (.scriptSyntax file e.reason)
  | .ok program => program.body.mapM (ofStatement file script)

end ScriptItem

end NgFile
