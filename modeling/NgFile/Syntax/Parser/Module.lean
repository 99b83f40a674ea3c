import NgFile.Syntax.Parser.Expression

/-!
# Imports and exports

What a script takes from other modules and gives to them by name.
-/

namespace NgFile

namespace Syntax

/-- Whether a name can be bound here: no string and no reserved word. -/
def ModuleName.isBindable : ModuleName → Bool
  | .ident name =>
      match Keyword.ofText? name.text with
      | some k => !k.isReserved && k != .kwAwait
      | none => true
  | .string _ _ => false

/-- Whether a name can be exported from here: one that can be bound and is never reserved. -/
def ModuleName.isExportable (name : ModuleName) : Bool :=
  name.isBindable && match name with
    | .ident name =>
        match Keyword.ofText? name.text with
        | some k =>
            !([Keyword.kwImplements, .kwInterface, .kwPackage, .kwPrivate, .kwProtected, .kwPublic,
              .kwStatic].contains k)
        | none => true
    | .string _ _ => false

namespace Parser

def moduleName : Parser ModuleName := do
  let m ← mark
  match (← peek).kind with
  | .string value =>
      require (!value.hasLoneSurrogate)
      let _ ← advance
      pure (.string (← since m) value)
  | _ => pure (.ident (← anyName))

def isModuleName (token : Token) : Bool :=
  isAnyWord token || match token.kind with
    | .string _ => true
    | _ => false

/-- The second name of a binding after `as`, or the first name again. -/
def bindingAlias (first : ModuleName) (isType : Bool) : Parser ModuleBinding := do
  if ← eatWord .kwAs then
    let inner ← moduleName
    pure ⟨isType, first, inner, true⟩
  else pure ⟨isType, first, first, false⟩

/--
One binding in braces.  The word `type` in front of it may be a modifier or a name,
and so may `as` after it; what follows decides.
-/
def moduleBinding : Parser ModuleBinding := do
  let token ← peek
  let second ← peekAhead 1
  let third ← peekAhead 2
  let fourth ← peekAhead 3
  if isWord .kwType token then
    if isWord .kwAs second then
      if isWord .kwAs third then
        if isModuleName fourth then
          let _ ← advance
          bindingAlias (← moduleName) true
        else bindingAlias (← moduleName) false
      else if isModuleName third then bindingAlias (← moduleName) false
      else
        let _ ← advance
        bindingAlias (← moduleName) true
    else if isModuleName second then
      let _ ← advance
      bindingAlias (← moduleName) true
    else bindingAlias (← moduleName) false
  else bindingAlias (← moduleName) false

/-- Bindings in braces; where all of them are types, none says so. -/
def moduleBindings (isType : Bool) : Parser (List ModuleBinding) := do
  expect .braceOpen
  let (bindings, _) ← commaList .braceClose moduleBinding
  expect .braceClose
  require (!(isType && bindings.any ModuleBinding.isType))
  pure bindings

def importAttribute : Parser ImportAttribute := do
  let key ← moduleName
  expect .colon
  pure ⟨key, ← stringLiteral⟩

/-- The word that announces attributes, if a token is one; the older one stays on its line. -/
def attributesWord? (token : Token) : Option Text :=
  if isWord .kwWith token then some "with"
  else if token.kind == .name "assert" && token.gap != .newline then some "assert"
  else none

def moduleSource : Parser ModuleSource := do
  let value ← stringLiteral
  match attributesWord? (← peek) with
  | some word =>
      let _ ← advance
      expect .braceOpen
      let (entries, _) ← commaList .braceClose importAttribute
      expect .braceClose
      require (decide (entries.map fun entry => entry.key.text).Nodup)
      pure ⟨value, some ⟨word, entries⟩⟩
  | none => pure ⟨value, none⟩

/--
The bindings of an import after its default binding, up to the module.  An import of types has
no bindings after a default binding.
-/
def importClause (isType : Bool) (default : Option Name) : Parser ImportClause := do
  require (!(isType && default.isSome))
  if ← eat .star then
    expectWord .kwAs
    let name ← bindingName
    pure ⟨default, some name, none⟩
  else
    let bindings ← moduleBindings isType
    require (bindings.all fun b => ModuleName.isBindable b.inner)
    pure ⟨default, none, some bindings⟩

def importTail (m : Mark) (isType : Bool) (phase : ImportPhase) (default : Option Name) :
    Parser Stmt := do
  let clause ← (match default with
    | none => importClause isType none
    | some name => do
        if ← eat .comma then importClause isType (some name)
        else pure (⟨some name, none, none⟩ : ImportClause))
  expectWord .kwFrom
  let source ← moduleSource
  semicolon
  pure (.importDecl (← since m) ⟨isType, phase, some clause, source⟩)

def importEquals (m : Mark) (isType : Bool) (name : Name) : Parser Stmt := do
  expect .equal
  if isWord .kwRequire (← peek) && isPunct .parenOpen (← peekAhead 1) then
    advanceBy 2
    let value ← stringLiteral
    expect .parenClose
    semicolon
    pure (.importEquals (← since m) isType name [] (some value))
  else
    let path ← dottedName
    semicolon
    pure (.importEquals (← since m) isType name path none)

def atTypeImport : Parser Bool := do
  let token ← peek
  let second ← peekAhead 1
  let third ← peekAhead 2
  pure (isWord .kwType token &&
    (isPunct .braceOpen second || isPunct .star second ||
      (isName second &&
        !(isWord .kwFrom second && !isWord .kwFrom third && !isPunct .equal third))))

def importPhase : Parser ImportPhase := do
  let token ← peek
  let second ← peekAhead 1
  let third ← peekAhead 2
  if isWord .kwDefer token && isPunct .star second then
    let _ ← advance
    pure .deferred
  else if isWord .kwSource token && isName second && isWord .kwFrom third then
    let _ ← advance
    pure .source
  else pure .evaluation

def importDeclaration : Parser Stmt := do
  let m ← mark
  expectWord .kwImport
  match (← peek).kind with
  | .string _ =>
      let source ← moduleSource
      semicolon
      pure (.importDecl (← since m) ⟨false, .evaluation, none, source⟩)
  | _ =>
      let isType ← atTypeImport
      if isType then
        let _ ← advance
      let phase ← (if isType then pure .evaluation else importPhase)
      if isName (← peek) then
        let name ← bindingName
        if ← atPunct .equal then importEquals m isType name
        else importTail m isType phase (some name)
      else importTail m isType phase none

def exportAll (m : Mark) (isType : Bool) : Parser Stmt := do
  expect .star
  let name ← (do if ← eatWord .kwAs then pure (some (← moduleName)) else pure none)
  expectWord .kwFrom
  let source ← moduleSource
  semicolon
  pure (.exportAll (← since m) isType name source)

def exportNames (m : Mark) (isType : Bool) : Parser Stmt := do
  let bindings ← moduleBindings isType
  if ← eatWord .kwFrom then
    let source ← moduleSource
    semicolon
    pure (.exportNames (← since m) isType bindings (some source))
  else
    require (bindings.all fun b => ModuleName.isExportable b.outer)
    semicolon
    pure (.exportNames (← since m) isType bindings none)

end Parser

end Syntax

end NgFile
