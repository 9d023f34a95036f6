-- SUMMARY: What a device has taken and what waits for it are together all that was written.
import MachineAtlas.Files.Buffered
/-!
# Buffered writing loses nothing

What a device has taken and what waits for it are together all that was written, in order, on any
device, since an operation that fails adds nothing. It fails only because the device refuses bytes,
so on a device that refuses none everything that is written arrives, and never more than one buffer
waits.
-/
namespace MachineAtlas.Buffered

variable {σ ε : Type} {put : Bytes → σ → Except ε σ}

/-! ## What a device takes -/

/-- The device gets from one state to another by writes that succeed, and takes their bytes in
order. -/
inductive Takes (put : Bytes → σ → Except ε σ) : σ → Bytes → σ → Prop where
  | nothing (s : σ) : Takes put s [] s
  | write {s t u : σ} {data rest : Bytes} (hput : put data s = .ok t) (hrest : Takes put t rest u) :
      Takes put s (data ++ rest) u

theorem Takes.one {s t : σ} {data : Bytes} (hput : put data s = .ok t) : Takes put s data t := by
  have h := Takes.write hput (.nothing t)
  rwa [List.append_nil] at h

theorem Takes.trans {s t u : σ} {data more : Bytes} (h : Takes put s data t)
    (h' : Takes put t more u) : Takes put s (data ++ more) u := by
  induction h with
  | nothing => exact h'
  | write hput _ ih =>
      rw [List.append_assoc]
      exact .write hput (ih h')

/-- The bytes of an operation, unless it has failed. -/
def credited (data : Bytes) : Except ε Unit → Bytes
  | .ok () => data
  | .error _ => []

/-- What an operation that adds bytes to a buffer does, on any device: the device takes bytes from
the front of those that wait, the rest goes on waiting, and if the operation fails, the device
refuses bytes in the state that it is left in. -/
structure Passes (put : Bytes → σ → Except ε σ) (b : Buffered σ) (added : Bytes) (b' : Buffered σ)
    (r : Except ε Unit) : Prop where
  takes : ∃ taken, Takes put b.device taken b'.device ∧ taken ++ b'.pending = b.pending ++ added
  pending_le : b.pending.length ≤ capacity → b'.pending.length ≤ capacity
  refused : ∀ e, r = .error e → ∃ data, data ≠ [] ∧ put data b'.device = .error e

namespace Passes

variable {b b' b'' : Buffered σ} {added more : Bytes} {r r' : Except ε Unit}

protected theorem nothing (b : Buffered σ) : Passes put b [] b (.ok ()) where
  takes := ⟨[], .nothing _, (List.append_nil _).symm⟩
  pending_le := id
  refused _ h := by cases h

protected theorem trans (h : Passes put b added b' r) (h' : Passes put b' more b'' r') :
    Passes put b (added ++ more) b'' r' where
  takes := by
    obtain ⟨taken, htakes, heq⟩ := h.takes
    obtain ⟨taken', htakes', heq'⟩ := h'.takes
    refine ⟨taken ++ taken', htakes.trans htakes', ?_⟩
    rw [List.append_assoc, heq', ← List.append_assoc, heq, List.append_assoc]
  pending_le := h'.pending_le ∘ h.pending_le
  refused := h'.refused

end Passes

/-- A flush adds nothing, and if it succeeds nothing waits any more. -/
theorem flush_passes (put : Bytes → σ → Except ε σ) (b : Buffered σ) :
    Passes put b [] (b.flush put).1 (b.flush put).2 ∧
      ((b.flush put).2 = .ok () → (b.flush put).1.pending = []) := by
  unfold flush
  split
  · rename_i hempty
    exact ⟨.nothing b, fun _ => List.isEmpty_iff.1 hempty⟩
  rename_i hwaits
  split
  · rename_i t hput
    refine ⟨⟨⟨b.pending, .one hput, rfl⟩, fun _ => Nat.zero_le _, ?_⟩, fun _ => rfl⟩
    intro e h
    cases h
  · rename_i e hput
    refine ⟨⟨⟨[], .nothing _, (List.append_nil _).symm⟩, id, ?_⟩, ?_⟩
    · rintro _ ⟨⟩
      exact ⟨b.pending, mt List.isEmpty_iff.2 hwaits, hput⟩
    · intro h
      cases h

/-- If a reservation succeeds, there is room for the bytes or nothing waits. -/
theorem reserve_passes (put : Bytes → σ → Except ε σ) (b : Buffered σ) (size : Nat) :
    Passes put b [] (b.reserve put size).1 (b.reserve put size).2 ∧
      ((b.reserve put size).2 = .ok () → (b.reserve put size).1.pending = [] ∨
        size ≤ capacity - (b.reserve put size).1.pending.length) := by
  unfold reserve
  split
  · obtain ⟨hpasses, hempty⟩ := flush_passes put b
    exact ⟨hpasses, fun h => .inl (hempty h)⟩
  · rename_i hroom
    exact ⟨.nothing b, fun _ => .inr (Nat.not_lt.1 hroom)⟩

/-- A write that fails adds nothing. -/
theorem write_passes (put : Bytes → σ → Except ε σ) (b : Buffered σ) (data : Bytes) :
    Passes put b (credited data (b.write put data).2) (b.write put data).1
      (b.write put data).2 := by
  obtain ⟨hreserve, hroom⟩ := reserve_passes put b data.length
  rcases heq : b.reserve put data.length with ⟨b₁, (e | u)⟩
  all_goals
    rw [heq] at hreserve hroom
    simp only [write, heq]
  · exact hreserve
  have hreserve₁ : Passes put b [] b₁ (.ok u) := hreserve
  have hroom₁ : b₁.pending = [] ∨ data.length ≤ capacity - b₁.pending.length := hroom rfl
  split
  · -- Bytes go past the buffer only when nothing waits in it, so they stay in order.
    rename_i hlarge
    have hempty : b₁.pending = [] := by
      rcases hroom₁ with hempty | hfits
      · exact hempty
      · have hpos : 0 < capacity := by decide
        exact List.eq_nil_of_length_eq_zero (by omega)
    split
    · rename_i t hput
      refine hreserve₁.trans ⟨⟨data, .one hput, ?_⟩, id, ?_⟩
      · rw [hempty]
        exact List.append_nil data
      · intro e h
        cases h
    · rename_i e hput
      have hne : data ≠ [] := by
        rintro rfl
        exact absurd hlarge (by decide)
      refine ⟨hreserve₁.takes, hreserve₁.pending_le, ?_⟩
      rintro _ ⟨⟩
      exact ⟨data, hne, hput⟩
  · rename_i hsmall
    refine hreserve₁.trans ⟨⟨[], .nothing _, rfl⟩, ?_, ?_⟩
    · intro hle
      rw [List.length_append]
      rcases hroom₁ with hempty | hfits
      · rw [hempty, List.length_nil]
        omega
      · omega
    · intro e h
      cases h

/-- Pieces are written up to the first that fails. -/
theorem writeAll_passes (put : Bytes → σ → Except ε σ) (b : Buffered σ) (pieces : List Bytes) :
    ∃ done, done <+: pieces ∧ ((b.writeAll put pieces).2 = .ok () → done = pieces) ∧
      Passes put b done.flatten (b.writeAll put pieces).1 (b.writeAll put pieces).2 := by
  induction pieces generalizing b with
  | nil => exact ⟨[], List.prefix_rfl, fun _ => rfl, .nothing b⟩
  | cons data pieces ih =>
      have hwrite := write_passes put b data
      rcases heq : b.write put data with ⟨b₁, (e | u)⟩
      · rw [heq] at hwrite
        simp only [writeAll, heq]
        refine ⟨[], List.nil_prefix, ?_, hwrite⟩
        intro h
        cases h
      · rw [heq] at hwrite
        simp only [writeAll, heq]
        obtain ⟨done, hfront, hall, hpasses⟩ := ih b₁
        refine ⟨data :: done, List.cons_prefix_cons.2 ⟨rfl, hfront⟩, ?_, hwrite.trans hpasses⟩
        intro h
        rw [hall h]

/-- Bytes that leave room in the buffer are not passed on. -/
theorem writeAll_eq_of_lt (b : Buffered σ) {pieces : List Bytes}
    (h : b.pending.length + pieces.flatten.length < capacity) :
    b.writeAll put pieces = (⟨b.device, b.pending ++ pieces.flatten⟩, .ok ()) := by
  induction pieces generalizing b with
  | nil => simp [writeAll]
  | cons data pieces ih =>
      rw [List.flatten_cons, List.length_append] at h
      have hroom : ¬ capacity - b.pending.length < data.length := by omega
      have hsmall : ¬ capacity ≤ data.length := by omega
      have hrest : (b.pending ++ data).length + pieces.flatten.length < capacity := by
        rw [List.length_append]
        omega
      simp only [writeAll, write, reserve, if_neg hroom, if_neg hsmall]
      rw [ih ⟨b.device, b.pending ++ data⟩ hrest, List.flatten_cons, List.append_assoc]

/-! ## What writing does to the device -/

/-- A relation between the states of a device that every write keeps to, and so does every sequence
of writes. -/
structure Kept (put : Bytes → σ → Except ε σ) (R : σ → σ → Prop) : Prop where
  refl : ∀ s, R s s
  trans : ∀ {s t u}, R s t → R t u → R s u
  put : ∀ {data s t}, put data s = .ok t → R s t

namespace Kept

variable {R : σ → σ → Prop}

theorem of_takes (h : Kept put R) {s t : σ} {taken : Bytes} (htakes : Takes put s taken t) :
    R s t := by
  induction htakes with
  | nothing s => exact h.refl s
  | write hput _ ih => exact h.trans (h.put hput) ih

theorem flush (h : Kept put R) (b : Buffered σ) : R b.device (b.flush put).1.device := by
  obtain ⟨taken, htakes, -⟩ := (flush_passes put b).1.takes
  exact h.of_takes htakes

theorem writeAll (h : Kept put R) (b : Buffered σ) (pieces : List Bytes) :
    R b.device (b.writeAll put pieces).1.device := by
  obtain ⟨done, -, -, hpasses⟩ := writeAll_passes put b pieces
  obtain ⟨taken, htakes, -⟩ := hpasses.takes
  exact h.of_takes htakes

end Kept

/-! ## Accounts of a device -/

/-- A write that succeeds in a good state adds its bytes to the content of the device. -/
def Delivers (put : Bytes → σ → Except ε σ) (good : σ → Prop) (content : σ → Bytes) : Prop :=
  ∀ s data t, good s → put data s = .ok t → good t ∧ content t = content s ++ data

/-- In a good state the device takes any bytes, appends them to its content, and stays good. -/
def Reliable (put : Bytes → σ → Except ε σ) (good : σ → Prop) (content : σ → Bytes) : Prop :=
  ∀ s data, good s → ∃ t, put data s = .ok t ∧ good t ∧ content t = content s ++ data

theorem Reliable.delivers {good : σ → Prop} {content : σ → Bytes}
    (h : Reliable put good content) : Delivers put good content := by
  intro s data t hgood hput
  obtain ⟨t', ht', hafter⟩ := h s data hgood
  rw [hput] at ht'
  cases ht'
  exact hafter

theorem Delivers.of_takes {good : σ → Prop} {content : σ → Bytes}
    (h : Delivers put good content) {s t : σ} {taken : Bytes} (htakes : Takes put s taken t)
    (hgood : good s) : good t ∧ content t = content s ++ taken := by
  induction htakes with
  | nothing s => exact ⟨hgood, (List.append_nil _).symm⟩
  | write hput _ ih =>
      obtain ⟨hgood', hcontent⟩ := h _ _ _ hgood hput
      obtain ⟨hlast, hrest⟩ := ih hgood'
      exact ⟨hlast, by rw [hrest, hcontent, List.append_assoc]⟩

/-- The device and the waiting bytes hold all that was written. -/
structure Holds (good : σ → Prop) (content : σ → Bytes) (b : Buffered σ) (written : Bytes) :
    Prop where
  good : good b.device
  written_eq : content b.device ++ b.pending = written
  pending_le : b.pending.length ≤ capacity

namespace Holds

variable {good : σ → Prop} {content : σ → Bytes} {b b' : Buffered σ} {written added : Bytes}
  {r : Except ε Unit}

/-- What an operation adds is held, whether it succeeds or fails. -/
theorem passes (hput : Delivers put good content) (h : Holds good content b written)
    (hpasses : Passes put b added b' r) : Holds good content b' (written ++ added) := by
  obtain ⟨taken, htakes, heq⟩ := hpasses.takes
  obtain ⟨hgood, hcontent⟩ := hput.of_takes htakes h.good
  refine ⟨hgood, ?_, hpasses.pending_le h.pending_le⟩
  rw [hcontent, List.append_assoc, heq, ← List.append_assoc, h.written_eq]

/-- Operations on a reliable device succeed. -/
theorem result_eq (hput : Reliable put good content) (h : Holds good content b written)
    (hpasses : Passes put b added b' r) : r = .ok () := by
  cases hr : r with
  | ok u => rfl
  | error e =>
      -- The device would have to refuse bytes in the state that it is left in, which is good.
      obtain ⟨data, -, hrefused⟩ := hpasses.refused e hr
      obtain ⟨t, ht, -⟩ := hput _ data (h.passes hput.delivers hpasses).good
      rw [hrefused] at ht
      cases ht

/-- After a flush nothing waits. -/
theorem flush (hput : Reliable put good content) (h : Holds good content b written) :
    ∃ b', b.flush put = (b', .ok ()) ∧ Holds good content b' written ∧ b'.pending = [] := by
  obtain ⟨hpasses, hempty⟩ := flush_passes put b
  have hok := h.result_eq hput hpasses
  have hholds := h.passes hput.delivers hpasses
  rw [List.append_nil] at hholds
  exact ⟨_, Prod.ext rfl hok, hholds, hempty hok⟩

theorem writeAll (hput : Reliable put good content) (pieces : List Bytes)
    (h : Holds good content b written) :
    ∃ b', b.writeAll put pieces = (b', .ok ()) ∧
      Holds good content b' (written ++ pieces.flatten) := by
  obtain ⟨done, -, hall, hpasses⟩ := writeAll_passes put b pieces
  have hok := h.result_eq hput hpasses
  have hholds := h.passes hput.delivers hpasses
  rw [hall hok] at hholds
  exact ⟨_, Prod.ext rfl hok, hholds⟩

end Holds

end MachineAtlas.Buffered
