-- SUMMARY: What a command is configured to, layer by layer, and that it comes out of a file again.
import Mathlib
import MachineAtlas.Command.Configure
import MachineAtlas.Proofs.Json.Layout
import MachineAtlas.Proofs.Text.Bytes
/-!
# Resolved configurations

A command takes its configuration from three layers: what a missing field stands for, what a file
says, and what the command line says over both. A file may be any document that stands for the
configuration. What comes out can be written to a file, and comes out of that again.
-/
namespace MachineAtlas

open Json (Draft Form Layout Quoted Tuple Value)
open Json.Codec (boolean_lawful path_lawful)
open Json.Field (default_lawful optional_lawful)
open Json.Form (option_lawful record_lawful spelled spelled_lawful written written_lawful)

namespace Config

/-! ## Documents -/

def fields (c : Config) : Tuple [Bool, String, Bool, Option String] :=
  (c.enabled, c.output, c.prettyPrintInstrs, c.diagnostics, ())

/-- The documents that stand for a configuration. -/
def form : Form Config :=
  .record layout (written .boolean, spelled, written .boolean, .option spelled, ()) fields

theorem layout_lawful : layout.Lawful :=
  ⟨default_lawful _ boolean_lawful _, by decide, default_lawful _ path_lawful _, by decide,
    default_lawful _ boolean_lawful _, by decide,
    optional_lawful _ path_lawful (fun _ h => by cases h), by decide, trivial⟩

theorem form_lawful : form.Lawful codec :=
  record_lawful layout_lawful
    ⟨written_lawful boolean_lawful, spelled_lawful _, written_lawful boolean_lawful,
      option_lawful (spelled_lawful _) (fun _ h => by cases h), trivial⟩
    fun _ => rfl

/-- A document without members stands for the default configuration and for no other. -/
theorem form_done_iff {c : Config} : form c (.object .done) ↔ c = {} := by
  have hread : codec.read (.object .done) = .ok {} := rfl
  constructor
  · intro hform
    have hsame := form_lawful.read c _ hform rfl
    rw [hread] at hsame
    exact (Except.ok.inj hsame).symm
  · rintro rfl
    exact ⟨.done, [], [], [], rfl, .done, .nil,
      .inl ⟨rfl, .inl ⟨rfl, .inl ⟨rfl, .inl ⟨rfl, rfl⟩⟩⟩⟩, List.forall_mem_nil _⟩

/-! ## Overrides -/

/-- A configuration is what overrides make of another one: a path that they give takes the place of
that of the configuration, printing is asked for by either, and either can disable a run. -/
structure Overridden (c : Config) (o : Overrides) (r : Config) : Prop where
  output_given : ∀ path, o.output = some path → r.output = path
  output_kept : o.output = none → r.output = c.output
  diagnostics_given : ∀ path, o.diagnostics = some path → r.diagnostics = some path
  diagnostics_kept : o.diagnostics = none → r.diagnostics = c.diagnostics
  prettyPrintInstrs : r.prettyPrintInstrs = true ↔
    c.prettyPrintInstrs = true ∨ o.prettyPrintInstrs = true
  enabled : r.enabled = true ↔ c.enabled = true ∧ o.disable = false

theorem overridden_override (c : Config) (o : Overrides) : c.Overridden o (c.override o) where
  output_given path h := by rw [override, h, Option.getD_some]
  output_kept h := by rw [override, h, Option.getD_none]
  diagnostics_given path h := by rw [override, h, Option.some_or]
  diagnostics_kept h := by rw [override, h, Option.none_or]
  prettyPrintInstrs := Bool.or_eq_true_iff
  enabled := by
    rw [override, Bool.and_eq_true, Bool.not_eq_true']

/-- Overrides leave nothing open. -/
theorem Overridden.eq_override {c r : Config} {o : Overrides} (h : c.Overridden o r) :
    r = c.override o := by
  have hsame := c.overridden_override o
  have houtput : r.output = (c.override o).output := by
    cases hgiven : o.output with
    | none => rw [h.output_kept hgiven, hsame.output_kept hgiven]
    | some path => rw [h.output_given path hgiven, hsame.output_given path hgiven]
  have hdiagnostics : r.diagnostics = (c.override o).diagnostics := by
    cases hgiven : o.diagnostics with
    | none => rw [h.diagnostics_kept hgiven, hsame.diagnostics_kept hgiven]
    | some path => rw [h.diagnostics_given path hgiven, hsame.diagnostics_given path hgiven]
  have hprint : r.prettyPrintInstrs = (c.override o).prettyPrintInstrs :=
    Bool.eq_iff_iff.2 (h.prettyPrintInstrs.trans hsame.prettyPrintInstrs.symm)
  have henabled : r.enabled = (c.override o).enabled :=
    Bool.eq_iff_iff.2 (h.enabled.trans hsame.enabled.symm)
  cases r
  simp only at houtput hdiagnostics hprint henabled
  rw [houtput, hdiagnostics, hprint, henabled]

/-- To be overridden once more in the same way changes nothing. -/
@[simp] theorem override_override (c : Config) (o : Overrides) :
    (c.override o).override o = c.override o := by
  have houtput : o.output.getD (o.output.getD c.output) = o.output.getD c.output := by
    cases o.output <;> rfl
  simp only [override, houtput, Bool.and_assoc, Bool.and_self, Bool.or_assoc, Bool.or_self,
    ← Option.or_assoc, Option.or_self]

end Config

/-! ## Resolving -/

namespace Command

variable {fs : FileSystem} {path text : String} {c : Config}

/-- The name of a file does not call for YAML. -/
def HoldsJson (path : String) : Prop :=
  Path.extension? path ≠ some "yaml" ∧ Path.extension? path ≠ some "yml"

theorem contains_extension (h : HoldsJson path) :
    yamlExtensions.contains ((Path.extension? path).getD "") = false := by
  obtain ⟨hyaml, hyml⟩ := h
  cases hextension : Path.extension? path with
  | none => rfl
  | some e =>
      rw [hextension, Ne, Option.some_inj] at hyaml hyml
      simp [yamlExtensions, hyaml, hyml]

theorem loadConfig_of_parse (hpath : HoldsJson path) (hread : fs.readText path = .ok text)
    (hparse : Config.codec.parse text = .ok c) : loadConfig fs path = .ok c := by
  simp only [loadConfig, hread, contains_extension hpath, hparse]
  rfl

theorem resolveConfig_of_parse (hpath : HoldsJson path) (hread : fs.readText path = .ok text)
    (hparse : Config.codec.parse text = .ok c) (o : Config.Overrides) :
    resolveConfig fs (some path) o = .ok (c.override o) := by
  simp only [resolveConfig, loadConfig_of_parse hpath hread hparse]
  rfl

/-- The configuration that a command works with is the same if it is written to a file and resolved
from there. -/
theorem resolveConfig_line (c : Config) (o : Config.Overrides) (hpath : HoldsJson path)
    (hread : fs.readText path = .ok (Config.codec.line (c.override o))) :
    resolveConfig fs (some path) o = .ok (c.override o) := by
  obtain ⟨hform, hspells⟩ := Config.form_lawful.spells_line (c.override o)
  rw [resolveConfig_of_parse hpath hread (Config.form_lawful.parse hform hspells),
    Config.override_override]

/-- The command line goes before the file and the file before the defaults. A file is one of any text
that stands for a configuration, with its fields in any order, without those that have their default
values, and with any members besides; the one of no members stands for the defaults. -/
theorem resolveConfig_overridden (o : Config.Overrides) :
    (∀ (fs : FileSystem) (path text : String) (c : Config) (d : Draft), HoldsJson path →
      fs.readText path = .ok text → Config.form c d → d.SpellsPadded text.toList →
      ∃ r, resolveConfig fs (some path) o = .ok r ∧ c.Overridden o r ∧
        ∀ fs' path', HoldsJson path' → fs'.readText path' = .ok (Config.codec.line r) →
          resolveConfig fs' (some path') o = .ok r) ∧
    (∀ fs : FileSystem, ∃ r, resolveConfig fs none o = .ok r ∧
      Config.Overridden ⟨true, "frameprobe.jsonl", false, none⟩ o r ∧
      ∀ fs' path', HoldsJson path' → fs'.readText path' = .ok (Config.codec.line r) →
        resolveConfig fs' (some path') o = .ok r) ∧
    ∀ c, Config.form c (.object .done) ↔ c = ⟨true, "frameprobe.jsonl", false, none⟩ := by
  refine ⟨?_, ?_, fun c => Config.form_done_iff⟩
  · intro fs path text c d hpath hread hform hspells
    have hparse := Config.form_lawful.parse hform hspells
    exact ⟨c.override o, resolveConfig_of_parse hpath hread hparse o, c.overridden_override o,
      fun fs' path' hpath' hread' => resolveConfig_line c o hpath' hread'⟩
  · intro fs
    exact ⟨Config.override {} o, rfl, Config.overridden_override {} o,
      fun fs' path' hpath' hread' => resolveConfig_line {} o hpath' hread'⟩

/-! ## A sparse file -/

def sparse : Config := { enabled := false, diagnostics := some "a\"b" }

/-- A document for `sparse` without the fields that have their default values, with the others in
another order, and with a member that is no field:
`{"x":[],"diagnostics":"a\"b","enabled":false}`. -/
def sparseValue : Value :=
  .object [("x", .array []), ("diagnostics", .text "a\"b"), ("enabled", .boolean false)]

def sparseKept : List (String × Draft) :=
  [("enabled", .boolean false), ("diagnostics", (Value.text "a\"b").draft)]

theorem sparseValue_form : Config.form sparse sparseValue.draft := by
  refine ⟨_, _, sparseKept, [("x", .array .done)], rfl, Layout.lists_membersDraft _,
    List.reverse_perm (sparseKept ++ [("x", Draft.array .done)]), ?_, ?_⟩
  · exact .inr ⟨_, _, rfl, rfl, .inl ⟨rfl, .inl ⟨rfl, .inr ⟨_, _, rfl,
      ⟨_, rfl, Quoted.text_ofChars _⟩, rfl⟩⟩⟩⟩
  · intro m hm
    obtain rfl : m = ("x", .array .done) := by simpa using hm
    decide

theorem sparseValue_padded : sparseValue.draft.SpellsPadded sparseValue.line.toList := by
  rw [Value.line, String.toList_ofList]
  exact sparseValue.spells_compact.padded

theorem resolveConfig_overridden_sparse :
    resolveConfig ⟨"/", [(["c.j"], .file (textBytes sparseValue.line))]⟩ (some "c.j")
        { output := some "r", prettyPrintInstrs := true } =
      .ok ⟨false, "r", true, some "a\"b"⟩ := by
  have hread : FileSystem.readText ⟨"/", [(["c.j"], .file (textBytes sparseValue.line))]⟩ "c.j" =
      .ok sparseValue.line := by
    have hbytes (content : Bytes) :
        FileSystem.readBytes ⟨"/", [(["c.j"], .file content)]⟩ "c.j" = .ok content := by
      cbv
    rw [FileSystem.readText, hbytes]
    simp only [bind, Except.bind, bytesText?_textBytes]
    rfl
  obtain ⟨r, hresolve, hoverridden, -⟩ :=
    (resolveConfig_overridden { output := some "r", prettyPrintInstrs := true }).1 _ _ _ _ _
      ⟨by decide, by decide⟩ hread sparseValue_form sparseValue_padded
  rw [hresolve, hoverridden.eq_override]
  rfl

end Command

end MachineAtlas
