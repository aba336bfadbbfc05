import MockForge.Context
import MockForge.Mock
import MockForge.Output
import MockForge.Plugin
import MockForge.ReturnHandler

/-!
# The generator

A mock is a header and a source with a fixed frame, into which plugins put their fragments and the
handler of return values puts the end of each stub. Every part is a step that adds fragments.
-/

namespace MockForge

/-- The first line of every generated file. -/
def banner : String := "/* AUTOGENERATED FILE. DO NOT EDIT. */\n"

/-- The directive that includes a file. -/
def includeLine (file : String) : String := "#include \"" ++ file ++ "\"\n"

/-- The line with which a body starts. -/
def bodyStart : String := String.ofList ['{', '\n']

/-- The line with which the body of a function ends, and a blank one. -/
def bodyEnd : String := String.ofList ['}', '\n', '\n']

/-- The line with which the structure of a mock ends, and a blank one. It names the variable that
has this structure. -/
def instanceEnd : String := String.ofList ['}'] ++ " Mock;\n\n"

/-- A character of an include guard: letters are upper case, and what cannot stand in a symbol
becomes an underscore. -/
def guardChar (c : Char) : Char := if c.isAlphanum then c.toUpper else '_'

/-- The symbol that guards a header against being included twice. It is made from the name of the
header without the directories it lies in. -/
def includeGuard (header : String) : String :=
  "_" ++ String.ofList (((Path.fileName? ⟨header⟩).getD header).toList.map guardChar)

/-- The header that belongs to a source, without the directories it lies in. -/
def companionHeader (source : String) : String :=
  (Path.renamed? "h" ⟨source⟩).getD (source ++ ".h")

/-- What makes mocks in a context. -/
structure Generator where
  context : Context
  plugins : Chain := {}
  returns : ReturnHandler := .zeroed

namespace Generator

/-! ## Parts of the header -/

/-- The banner, the include guard, the includes and the prototypes of the mock itself. -/
def headerPreamble (g : Generator) (file : String) : Emission Fault Unit :=
  let mock := g.context.mock.text
  Emission.emit
    [banner,
     "#ifndef " ++ includeGuard file ++ "\n",
     "#define " ++ includeGuard file ++ "\n\n",
     g.context.includeBlock,
     includeLine g.context.module.headerFile ++ "\n",
     "void " ++ mock ++ "_Init(void);\n",
     "void " ++ mock ++ "_Destroy(void);\n",
     "void " ++ mock ++ "_Verify(void);\n\n"]

/-- What plugins contribute to a hook for every function. -/
def contributions (g : Generator) (hook : Hook) (functions : List Signature) :
    Emission Fault Unit :=
  Emission.forEach (fun function => Emission.ofFragments (g.plugins.run hook function)) functions

/-- What plugins declare for the functions. -/
def functionDeclarations (g : Generator) (functions : List Signature) : Emission Fault Unit :=
  g.contributions .declarations functions

/-- The end of the include guard. -/
def headerEpilogue : Emission Fault Unit := Emission.emit ["\n#endif\n"]

/-! ## Parts of the source -/

/-- The banner and the includes of the source. -/
def sourcePreamble (g : Generator) (file : String) : Emission Fault Unit := do
  Emission.emit
    [banner, "#include <string.h>\n", "#include <stdlib.h>\n", "#include <setjmp.h>\n",
     includeLine g.context.frameworkHeader]
  let includes ← Emission.ofRun g.plugins.includes
  Emission.emit [includes, includeLine (companionHeader file) ++ "\n"]

/-- The structure that holds the state of the mock. C allows no empty structure. -/
def instanceStructure (g : Generator) (functions : List Signature) : Emission Fault Unit := do
  Emission.emit ["static struct " ++ g.context.mock.text ++ "Instance\n", bodyStart]
  if functions.isEmpty then
    Emission.emit [g.context.indent ++ "unsigned char placeHolder;\n"]
  Emission.emit [g.context.indent ++ "unsigned char allocFailure;\n"]
  g.contributions .instanceStructure functions
  Emission.emit [instanceEnd]

/-- What all mocks share. -/
def externDeclarations : Emission Fault Unit :=
  Emission.emit
    ["extern jmp_buf AbortFrame;\n", "extern int GlobalExpectOrder;\n",
     "extern int GlobalVerifyOrder;\n", "\n"]

/-- An optional word with a blank after it. An empty word is as good as none. -/
def word (text : Option String) : String :=
  match text with
  | none => ""
  | some text => if text = "" then "" else text ++ " "

/-- The stub of a function. -/
def implementation (g : Generator) (function : Signature) : Emission Fault Unit := do
  if word function.attributes ≠ "" then
    Emission.emit [word function.attributes]
  Emission.emit
    [word function.modifier ++ function.returnType ++ " " ++ function.name ++ "("
      ++ function.parameterText ++ ")\n", bodyStart]
  Emission.ofFragments (g.plugins.run .stubStart function)
  Emission.ofFragments (g.plugins.run .stub function)
  let ending ← Emission.ofRun (g.returns.render function g.context.indent)
  Emission.emit [ending, bodyEnd]

/-- The function that checks the mock. -/
def verifyFunction (g : Generator) (functions : List Signature) : Emission Fault Unit := do
  Emission.emit
    ["void " ++ g.context.mock.text ++ "_Verify(void)\n" ++ bodyStart,
     g.context.indent ++ "TEST_ASSERT_EQUAL(0, Mock.allocFailure);\n"]
  g.contributions .verify functions
  Emission.emit [bodyEnd]

/-- The function that prepares the mock: it cleans up. -/
def initFunction (g : Generator) : Emission Fault Unit :=
  Emission.emit
    ["void " ++ g.context.mock.text ++ "_Init(void)\n" ++ bodyStart,
     g.context.indent ++ g.context.mock.text ++ "_Destroy();\n", bodyEnd]

/-- The function that cleans up. The plugins come first, since they may still read what is wiped
after them. -/
def destroyFunction (g : Generator) (functions : List Signature) : Emission Fault Unit := do
  Emission.emit ["void " ++ g.context.mock.text ++ "_Destroy(void)\n" ++ bodyStart]
  g.contributions .destroy functions
  Emission.emit [g.context.indent ++ "memset(&Mock, 0, sizeof(Mock));\n", bodyEnd]

/-! ## Whole files -/

/-- All of the header. -/
def header (g : Generator) (functions : List Signature) : Emission Fault Unit := do
  g.headerPreamble g.context.mock.headerFile
  g.functionDeclarations functions
  headerEpilogue

/-- All of the source. -/
def source (g : Generator) (functions : List Signature) : Emission Fault Unit := do
  g.sourcePreamble g.context.mock.sourceFile
  g.instanceStructure functions
  externDeclarations
  Emission.forEach g.implementation functions
  g.verifyFunction functions
  g.initFunction
  g.destroyFunction functions

/-- The mock of some functions: its header and its source, or neither. -/
def generate (g : Generator) (functions : List Signature) : Run Fault Mock := do
  let name := g.context.mock
  Run.note (.generating name.text functions.length)
  let header ← (g.header functions).output
  let source ← (g.source functions).output
  let mock : Mock :=
    { name, files := [⟨name.headerFile, header.render⟩, ⟨name.sourceFile, source.render⟩] }
  Run.note (.generated name.text mock.files.length)
  return mock

/-- A generator written out for a diagnosis. -/
def describe (g : Generator) : String :=
  Text.record "MockGenerator"
    ["context: " ++ g.context.describe, "plugins: " ++ g.plugins.describe, ".."]

end Generator

end MockForge
