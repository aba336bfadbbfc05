import MockForge.Fault
import MockForge.Run
import MockForge.Signature

/-!
# Plugins

A plugin contributes fragments of text to a mock. Plugins stand in a chain: a hook of a chain asks
each plugin in turn and puts their fragments one after another. The first plugin that fails ends
the run of the hook, and its failure is attributed to it unless it already is to another plugin,
as happens where a plugin hands its hooks on to a chain of its own.
-/

namespace MockForge

/-- A contributor of fragments. It contributes nothing where it does not say otherwise. -/
structure Plugin where
  name : String
  includes : Run Fault (List String) := pure []
  contribution : Hook → Signature → Run Fault (List String) := fun _ _ => pure []

namespace Plugin

/-- A plugin that contributes nothing. -/
def silent (name : String) : Plugin := { name }

/-- A plugin that answers as told and puts every question on record. -/
def scripted (name : String) (includes : Except Fault (List String))
    (contribution : Hook → Signature → Except Fault (List String)) : Plugin where
  name
  includes := do
    Run.call (.includes name)
    Run.ofOutcome includes
  contribution hook function := do
    Run.call (.contribution name hook function.name)
    Run.ofOutcome (contribution hook function)

/-- Attributes a failure to this plugin and tells of it. A failure that is attributed already stays
as it is. -/
def blame (plugin : Plugin) (hook : String) (fault : Fault) : Run Fault (List String) :=
  if fault.isPlugin then Run.fail fault
  else do
    Run.note (.pluginFailed plugin.name hook fault.message)
    Run.fail (.plugin plugin.name hook fault.message)

end Plugin

/-- Plugins in the order in which they are registered. -/
structure Chain where
  plugins : List Plugin := []

namespace Chain

/-- What includes are called in reports of failures. -/
def includesName : String := "include_files"

/-- The names of the plugins. -/
def names (chain : Chain) : List String := chain.plugins.map Plugin.name

/-- The chain with one more plugin at its end. -/
def register (chain : Chain) (plugin : Plugin) : Run Fault Chain := do
  Run.note (.pluginRegistered plugin.name)
  return ⟨chain.plugins ++ [plugin]⟩

/-- The chain of some plugins. -/
def ofList (plugins : List Plugin) : Run Fault Chain := plugins.foldlM register {}

/-- Asks each plugin in turn for fragments. -/
def collect (hook : String) (ask : Plugin → Run Fault (List String)) :
    List Plugin → Run Fault (List String)
  | [] => pure []
  | plugin :: rest => do
      let own ← (ask plugin).recover (plugin.blame hook)
      let others ← collect hook ask rest
      return own ++ others

/-- The fragments of all plugins for a function. -/
def run (chain : Chain) (hook : Hook) (function : Signature) : Run Fault (List String) :=
  collect hook.name (fun plugin => plugin.contribution hook function) chain.plugins

/-- The includes of all plugins, in one text. -/
def includes (chain : Chain) : Run Fault String :=
  String.join <$> collect includesName Plugin.includes chain.plugins

/-- A chain written out for a diagnosis. -/
def describe (chain : Chain) : String :=
  Text.record "PluginSet" ["plugins: [" ++ ", ".intercalate (chain.names.map Text.quoted) ++ "]"]

end Chain

end MockForge
