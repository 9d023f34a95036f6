-- SUMMARY: Configurations, what stands for their missing fields, and overrides.
import MachineAtlas.Json.Layout
/-!
# Configurations

What a run is told: whether to record at all, and where to.
-/
namespace MachineAtlas

/-- A configuration. Notes are dropped where `diagnostics` is not given. -/
structure Config where
  enabled : Bool := true
  output : String := "frameprobe.jsonl"
  prettyPrintInstrs : Bool := false
  diagnostics : Option String := none
  deriving DecidableEq, Repr, Inhabited

namespace Config

open Json (Codec Field Layout)

/-- Nothing is opened and nothing recorded. -/
def disabled : Config := { enabled := false }

/-- Records are written to `output`. -/
def writingTo (output : String) : Config := { output }

def withDiagnostics (c : Config) (path : String) : Config := { c with diagnostics := some path }

def withPrettyPrinting (c : Config) (on : Bool) : Config := { c with prettyPrintInstrs := on }

/-! ## Documents -/

def layout : Layout [Bool, String, Bool, Option String] :=
  .cons (.default "enabled" .boolean true) <|
  .cons (.default "output" .path "frameprobe.jsonl") <|
  .cons (.default "pretty_print_instrs" .boolean false) <|
  .cons (.optional "diagnostics" .path) <|
  .nil

def codec : Codec Config :=
  .record "EngineConfig" layout
    (fun c => (c.enabled, c.output, c.prettyPrintInstrs, c.diagnostics, ()))
    (fun (enabled, output, prettyPrintInstrs, diagnostics, ()) =>
      { enabled, output, prettyPrintInstrs, diagnostics })

/-! ## Overrides -/

/-- What a command line says over a configuration. -/
structure Overrides where
  output : Option String := none
  diagnostics : Option String := none
  prettyPrintInstrs : Bool := false
  disable : Bool := false
  deriving DecidableEq, Repr, Inhabited

/-- A path that is given wins, and a switch can only be set. -/
def override (c : Config) (o : Overrides) : Config where
  enabled := c.enabled && ! o.disable
  output := o.output.getD c.output
  prettyPrintInstrs := c.prettyPrintInstrs || o.prettyPrintInstrs
  diagnostics := o.diagnostics.or c.diagnostics

end Config

end MachineAtlas
