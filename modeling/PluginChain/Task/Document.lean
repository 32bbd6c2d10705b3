import PluginChain.Error

/-!
# Tasks in documents

A task is written in YAML or in JSON.  A file is read as JSON where its name says so, and as YAML
otherwise.
-/

set_option autoImplicit false

namespace PluginChain.Task

def ofYaml (text : String) : Except StructuralError Task :=
  (codec.ofYaml text).mapError .unreadableYaml

def ofJson (text : String) : Except StructuralError Task :=
  (codec.ofJson text).mapError .unreadableJson

/-- The task in a file of a name. -/
def ofFile (path text : String) : Except StructuralError Task :=
  if (FileTree.fileName? path).bind FileTree.suffix? = some "json" then ofJson text else ofYaml text

end PluginChain.Task
