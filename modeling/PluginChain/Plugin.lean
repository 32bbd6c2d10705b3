import PluginChain.Job
import PluginChain.Digest

/-!
# Plugins

A `PluginRecord` is a plugin as it is kept: a name, a description, the source of its script and two
instants.  `PluginInfo` is what is told about a plugin; instead of the source it has its digest.
-/

set_option autoImplicit false

namespace PluginChain

structure PluginRecord where
  name : String
  description : String
  source : String
  createdAt : Instant
  updatedAt : Instant
  deriving Repr, DecidableEq, Inhabited

structure PluginInfo where
  name : String
  description : String
  sourceHash : Option String
  updatedAt : Option Instant
  deriving Repr, DecidableEq, Inhabited

namespace PluginRecord

def fresh (now : Instant) (name description source : String) : PluginRecord :=
  ⟨name, description, source, now, now⟩

def info (r : PluginRecord) : PluginInfo :=
  ⟨r.name, r.description, some (Digest.ofText r.source), some r.updatedAt⟩

def codec : Codec PluginRecord where
  shape := .record "PluginRecord" [
    ("name", .text, none),
    ("description", .text, some (.text "")),
    ("source", .text, none),
    ("created_at", .instant, none),
    ("updated_at", .instant, none)]
  encode r := .table [
    ("name", .text r.name),
    ("description", .text r.description),
    ("source", .text r.source),
    ("created_at", .text r.createdAt.toText),
    ("updated_at", .text r.updatedAt.toText)]
  decode?
    | .table es => do
      return {
        name := ← Data.field? "name" Data.text? es
        description := ← Data.field? "description" Data.text? es
        source := ← Data.field? "source" Data.text? es
        createdAt := ← Data.field? "created_at" Job.instantOf? es
        updatedAt := ← Data.field? "updated_at" Job.instantOf? es }
    | _ => none

end PluginRecord

namespace PluginInfo

/-- The data that tells about a plugin. -/
def toData (i : PluginInfo) : Data :=
  .table ([("name", .text i.name), ("description", .text i.description)] ++
    Data.optional "source_hash" Data.text i.sourceHash ++
    Data.optional "updated_at" (fun t => .text t.toText) i.updatedAt)

end PluginInfo

end PluginChain
