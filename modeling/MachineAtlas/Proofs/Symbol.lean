-- SUMMARY: The form of mangled names, and the names that a demangler is asked for.
import Mathlib
import MachineAtlas.Symbol
/-!
# Mangled names

A name is mangled if it starts with one to four underscores and a `Z`, and it is these names that a
demangler is asked for, each of them once.
-/
namespace MachineAtlas.Symbol

variable {name : String} {demangle other : Demangler}

/-! ## The form of mangled names -/

/-- What mangled names start with. -/
def mangledFronts : List String := ["_Z", "__Z", "___Z", "____Z"]

/-- The name starts like a mangled one. -/
def startsMangled (name : String) : Bool :=
  mangledFronts.any fun front => front.toList.isPrefixOf name.toList

/-- A text starts with `n` underscores and a `Z` exactly if these are all of its underscores. -/
theorem isPrefixOf_iff (n : Nat) (cs : List Char) :
    (List.replicate n '_' ++ ['Z']).isPrefixOf cs = true ↔
      (cs.takeWhile (· == '_')).length = n ∧ cs[n]? = some 'Z' := by
  induction n generalizing cs with
  | zero =>
      cases cs with
      | nil => simp
      | cons c cs =>
          by_cases hc : c = 'Z'
          · simp [hc]
          · simp [hc, Ne.symm hc]
  | succ n ih =>
      cases cs with
      | nil => simp [List.replicate_succ]
      | cons c cs =>
          by_cases hc : c = '_'
          · simp [hc, List.replicate_succ, ih]
          · simp [hc, Ne.symm hc, List.replicate_succ]

theorem isMangled_eq_startsMangled (name : String) : isMangled name = startsMangled name := by
  have hfronts : mangledFronts.map String.toList =
      [1, 2, 3, 4].map fun n => List.replicate n '_' ++ ['Z'] := by decide
  have hstarts : startsMangled name =
      (mangledFronts.map String.toList).any fun front => front.isPrefixOf name.toList := by
    rw [List.any_map]
    rfl
  rw [Bool.eq_iff_iff, hstarts, hfronts, List.any_map, List.any_eq_true]
  simp only [isMangled, Function.comp, isPrefixOf_iff, Bool.and_eq_true, decide_eq_true_eq,
    beq_iff_eq]
  constructor
  · rintro ⟨⟨hlow, hhigh⟩, hz⟩
    refine ⟨_, ?_, rfl, hz⟩
    simp only [List.mem_cons, List.not_mem_nil, or_false]
    omega
  · rintro ⟨n, hn, rfl, hz⟩
    simp only [List.mem_cons, List.not_mem_nil, or_false] at hn
    exact ⟨by omega, hz⟩

@[simp] theorem isMangled_classify (demangle : Demangler) (name : String) :
    (classify demangle name).isMangled = startsMangled name := by
  rw [← isMangled_eq_startsMangled]
  unfold classify classifyWith
  split
  · rename_i h
    rw [h]
    rfl
  · rename_i h
    rw [Bool.eq_false_iff.2 h]
    rfl

/-- One to four underscores, a `Z` and any rest. -/
def MangledForm (name : String) : Prop :=
  ∃ n rest, 1 ≤ n ∧ n ≤ 4 ∧ name.toList = List.replicate n '_' ++ 'Z' :: rest

theorem isMangled_iff : isMangled name = true ↔ MangledForm name := by
  simp only [isMangled, Bool.and_eq_true, decide_eq_true_eq, beq_iff_eq]
  constructor
  · rintro ⟨⟨hlow, hhigh⟩, hz⟩
    obtain ⟨rest, hrest⟩ := List.isPrefixOf_iff_prefix.1 ((isPrefixOf_iff _ _).2 ⟨rfl, hz⟩)
    refine ⟨_, rest, hlow, hhigh, hrest.symm.trans ?_⟩
    rw [List.append_assoc, List.singleton_append]
  · rintro ⟨n, rest, hlow, hhigh, hname⟩
    have hfront : (List.replicate n '_' ++ ['Z']).isPrefixOf name.toList = true := by
      rw [List.isPrefixOf_iff_prefix]
      exact ⟨rest, by rw [hname, List.append_assoc, List.singleton_append]⟩
    obtain ⟨hlength, hz⟩ := (isPrefixOf_iff _ _).1 hfront
    rw [hlength]
    exact ⟨⟨hlow, hhigh⟩, hz⟩

instance (name : String) : Decidable (MangledForm name) := decidable_of_iff _ isMangled_iff

theorem isMangled_eq_decide (name : String) : isMangled name = decide (MangledForm name) := by
  rw [Bool.eq_iff_iff, isMangled_iff, decide_eq_true_iff]

/-- Five underscores are too many, whatever follows them. -/
theorem not_mangledForm_of_five (h : List.replicate 5 '_' <+: name.toList) :
    ¬ MangledForm name := by
  rintro ⟨n, rest, -, hhigh, hname⟩
  obtain ⟨more, hmore⟩ := h
  have hz : name.toList[n]? = some 'Z' := by
    rw [hname, List.getElem?_append_right (by simp)]
    simp
  have hlt : n < (List.replicate 5 '_').length := by
    rw [List.length_replicate]
    omega
  rw [← hmore, List.getElem?_append_left hlt, List.getElem?_replicate, if_pos (by omega)] at hz
  exact absurd hz (by decide)

/-! ## Classifying -/

/-- What a name is classified as. -/
theorem classify_eq (demangle : Demangler) (name : String) :
    classify demangle name = ⟨name, decide (MangledForm name),
      if MangledForm name then demangle name else none⟩ := by
  rw [classify, classifyWith, isMangled_eq_decide]
  by_cases h : MangledForm name
  · simp only [h, decide_true, if_true]
    rfl
  · simp only [h, decide_false, if_false]
    rfl

/-- Demanglers that read mangled names alike classify all names alike. -/
theorem classify_congr (h : ∀ name, MangledForm name → demangle name = other name)
    (name : String) : classify demangle name = classify other name := by
  rw [classify_eq, classify_eq]
  by_cases hname : MangledForm name
  · rw [if_pos hname, if_pos hname, h name hname]
  · rw [if_neg hname, if_neg hname]

/-! ## Asking -/

/-- A program gives a value and asks for names in order, whatever was asked for before. -/
def Asks {α : Type} (program : StateM (List String) α) (value : α) (names : List String) : Prop :=
  ∀ asked, program.run asked = (value, asked ++ names)

namespace Asks

variable {α β : Type}

theorem pure (value : α) : Asks (Pure.pure value) value [] := by
  intro asked
  rw [List.append_nil]
  rfl

theorem recording (demangle : Demangler) (name : String) :
    Asks (recording demangle name) (demangle name) [name] := fun _ => rfl

theorem bind {program : StateM (List String) α} {next : α → StateM (List String) β} {value : α}
    {value' : β} {names names' : List String} (h : Asks program value names)
    (hnext : Asks (next value) value' names') :
    Asks (program >>= next) value' (names ++ names') := by
  intro asked
  rw [StateT.run_bind, h, ← List.append_assoc]
  exact hnext _

/-- Programs in a row ask for what each of them asks for, one after the other. -/
theorem mapM {program : α → StateM (List String) β} {value : α → β} {names : α → List String}
    (h : ∀ a, Asks (program a) (value a) (names a)) (as : List α) :
    Asks (as.mapM program) (as.map value) (as.flatMap names) := by
  induction as with
  | nil => exact pure []
  | cons a as ih =>
      rw [List.mapM_cons, List.flatMap_cons, ← List.append_nil (as.flatMap names)]
      exact (h a).bind (ih.bind (pure _))

end Asks

/-- A name is asked for once if it is mangled, and never if it is not. -/
theorem asks_classifyWith (demangle : Demangler) (name : String) :
    Asks (classifyWith (recording demangle) name) (classify demangle name)
      ([name].filter fun name => MangledForm name) := by
  rw [classify_eq, classifyWith, isMangled_eq_decide]
  by_cases h : MangledForm name
  · simp only [h, decide_true, if_true, List.filter_singleton]
    exact (Asks.recording demangle name).bind (Asks.pure _)
  · simp only [h, decide_false, if_false, List.filter_singleton]
    exact Asks.pure _

/-- Names are classified one by one, and the demangler is asked for the mangled ones in order. -/
theorem classifyAll_eq (demangle : Demangler) (names : List String) :
    classifyAll demangle names =
      (names.map (classify demangle), names.filter fun name => MangledForm name) := by
  have hasks := Asks.mapM (asks_classifyWith demangle) names []
  rwa [← List.filter_flatMap, List.flatMap_singleton', List.nil_append] at hasks

end MachineAtlas.Symbol
