import NgFile.Text

/-!
# Compile errors

Every way in which compiling one file can fail, with its stable code and the
message shown to the user.
-/

namespace NgFile

/-- Why compiling a file failed. Every cause carries the name of the file. -/
inductive CompileError
  /-- The path holds no component identifier. -/
  | missingComponentName (file : Text)
  /-- The file has neither a script nor a template. -/
  | missingSections (file : Text)
  /-- The class skeleton does not parse. -/
  | missingSourceFile (file reason : Text)
  /-- The class skeleton has no entity class. -/
  | missingClass (file : Text)
  /-- The entity class lacks its decorator call. -/
  | missingDecorator (file : Text)
  /-- The decorator's argument is not a plain object literal. -/
  | invalidMetadataArguments (file : Text)
  /-- The entity class has no constructor with a body. -/
  | invalidConstructorBody (file : Text)
  /-- The script does not parse. -/
  | scriptSyntax (file reason : Text)
  /-- A variable declaration of the script cannot be promoted. -/
  | unsupportedDeclaration (file detail : Text)
  /-- A metadata call of the script cannot be read. -/
  | invalidDefineMetadata (file detail : Text)
  /-- The generated text does not parse, or holds no default class. -/
  | outputSyntax (file reason : Text)
  deriving DecidableEq

namespace CompileError

def code : CompileError → Text
  | missingComponentName _ => "NG-ERR-NAME"
  | missingSections _ => "NG-ERR-SECTIONS"
  | missingSourceFile _ _ => "NG-ERR-SOURCE-FILE"
  | missingClass _ => "NG-ERR-CLASS"
  | missingDecorator _ => "NG-ERR-DECORATOR"
  | invalidMetadataArguments _ => "NG-ERR-METADATA-ARGS"
  | invalidConstructorBody _ => "NG-ERR-CONSTRUCTOR"
  | scriptSyntax _ _ => "NG-ERR-SCRIPT-SYNTAX"
  | unsupportedDeclaration _ _ => "NG-ERR-DECLARATION"
  | invalidDefineMetadata _ _ => "NG-ERR-DEFINE-METADATA"
  | outputSyntax _ _ => "NG-ERR-OUTPUT-SYNTAX"

def file : CompileError → Text
  | missingComponentName file => file
  | missingSections file => file
  | missingSourceFile file _ => file
  | missingClass file => file
  | missingDecorator file => file
  | invalidMetadataArguments file => file
  | invalidConstructorBody file => file
  | scriptSyntax file _ => file
  | unsupportedDeclaration file _ => file
  | invalidDefineMetadata file _ => file
  | outputSyntax file _ => file

def message : CompileError → Text
  | missingComponentName file => "[Analog] Missing component name " ++ file
  | missingSections file => "[Analog] Either <script> or <template> must exist in " ++ file
  | missingSourceFile file reason => "[Analog] Missing source files " ++ file ++ ": " ++ reason
  | missingClass file => "[Analog] Missing class " ++ file
  | missingDecorator file => "[Analog] Missing metadata " ++ file
  | invalidMetadataArguments file => "[Analog] invalid metadata arguments " ++ file
  | invalidConstructorBody file => "[Analog] invalid constructor body " ++ file
  | scriptSyntax file reason =>
      "[Analog] Failed to parse <script> of " ++ file ++ ": " ++ reason
  | unsupportedDeclaration file detail =>
      "[Analog] Unsupported declaration in " ++ file ++ ": " ++ detail
  | invalidDefineMetadata file detail =>
      "[Analog] Invalid defineMetadata call in " ++ file ++ ": " ++ detail
  | outputSyntax file reason =>
      "[Analog] Generated output for " ++ file ++ " does not parse: " ++ reason

end CompileError

end NgFile
