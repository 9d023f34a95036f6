-- SUMMARY: Spelled numbers are read back whole where no part of a number follows.
import MachineAtlas.Json.Number
import MachineAtlas.Json.Value
/-!
# Numbers read back

The texts that spell a number, among them that of a written integer, and the quantity that an
integer is read as. A number is not closed by a mark of its own: it is read whole exactly where no
part of a number follows it.
-/
namespace MachineAtlas.Json.Number

/-! ## Digits -/

/-- The digits of a natural in the decimal system. -/
def decimals (n : Nat) : List Nat := (Nat.toDigits 10 n).map fun c => c.toNat - 48

theorem isDigit_eq (c : Char) : isDigit c = c.isDigit := by
  simp [isDigit, Char.isDigit, Char.le_def]

theorem isDigit_of_mem_toDigits {n : Nat} {c : Char} (h : c ∈ Nat.toDigits 10 n) :
    isDigit c = true := by
  rw [isDigit_eq]
  exact Nat.isDigit_of_mem_toDigits (by decide) (by decide) h

@[simp] theorem ofDigits_decimals (n : Nat) : ofDigits (decimals n) = n := by
  have h := Nat.ofDigitChars_ten_toDigits (n := n)
  rw [Nat.ofDigitChars_eq_foldl] at h
  simpa [ofDigits, decimals, List.foldl_map, Nat.mul_comm] using h

theorem decimals_of_lt {n : Nat} (h : n < 10) : decimals n = [n] := by
  simp [decimals, Nat.toDigits_of_lt_base h, Nat.toNat_digitChar_sub_48_of_lt_ten h]

theorem decimals_of_le {n : Nat} (h : 10 ≤ n) : decimals n = decimals (n / 10) ++ [n % 10] := by
  have hlast : n % 10 < 10 := Nat.mod_lt n (by decide)
  simp [decimals, Nat.toDigits_of_base_le (by decide) h,
    Nat.toNat_digitChar_sub_48_of_lt_ten hlast]

/-- The first digit of a positive natural is not zero. -/
theorem exists_decimals_cons {n : Nat} (h : 0 < n) : ∃ d ds, decimals n = d :: ds ∧ d ≠ 0 := by
  induction n using Nat.strongRecOn with
  | ind n ih =>
      by_cases hlt : n < 10
      · exact ⟨n, [], decimals_of_lt hlt, by omega⟩
      · obtain ⟨d, ds, hd, hne⟩ := ih (n / 10) (by omega) (by omega)
        exact ⟨d, ds ++ [n % 10], by rw [decimals_of_le (by omega), hd]; rfl, hne⟩

/-- A natural is not written with a zero in front. -/
theorem decimals_ne_zero_cons (n d : Nat) (ds : List Nat) : decimals n ≠ 0 :: d :: ds := by
  intro h
  rcases Nat.eq_zero_or_pos n with rfl | hpos
  · rw [decimals_of_lt (by decide)] at h
    cases h
  · obtain ⟨e, es, he, hne⟩ := exists_decimals_cons hpos
    rw [he] at h
    exact hne (List.cons.inj h).1

/-! ## Spelling -/

/-- No part of a number stands at the front of a text. -/
def Ends (rest : List Char) : Prop :=
  ∀ c ∈ rest.head?, isDigit c = false ∧ c ≠ '.' ∧ c ≠ 'e' ∧ c ≠ 'E'

theorem ends_nil : Ends [] := fun _ hc => by cases hc

/-- The marks between values end a number. -/
theorem ends_cons {c : Char} (h : c ∈ [',', ':', ']', '}']) (rest : List Char) :
    Ends (c :: rest) := by
  intro d hd
  obtain rfl : c = d := by simpa using hd
  simp only [List.mem_cons, List.not_mem_nil, or_false] at h
  rcases h with rfl | rfl | rfl | rfl <;> decide

theorem digits_append {cs rest : List Char} (h : ∀ c ∈ cs, isDigit c = true)
    (hrest : ∀ c ∈ rest.head?, isDigit c = false) :
    digits (cs ++ rest) = (cs.map (fun c => c.toNat - 48), rest) := by
  have htake : rest.takeWhile isDigit = [] := by
    cases rest with
    | nil => rfl
    | cons c rest => simp [hrest c rfl]
  have hdrop : rest.dropWhile isDigit = rest := by
    cases rest with
    | nil => rfl
    | cons c rest => simp [hrest c rfl]
  rw [digits, List.takeWhile_append_of_pos h, List.dropWhile_append_of_pos h, htake, hdrop,
    List.append_nil]

/-! ## Numbers that something follows -/

/-- A number without sign is read by its digits. -/
theorem scan_of_ne_minus {cs : List Char} (h : ∀ c ∈ cs.head?, c ≠ '-') :
    scan cs = scanMagnitude false cs := by
  cases cs with
  | nil => rfl
  | cons c cs => simp [scan, h c rfl]

/-- Once something follows the number that a reader finds, what comes after that does not change
the number. Nothing follows a number at the end of the text. -/
structure Stable (read : List Char → Scan) : Prop where
  nil : ∀ n rest, read [] = .found n rest → rest = []
  append : ∀ cs n rest more, read cs = .found n rest → rest ≠ [] →
    read (cs ++ more) = .found n (rest ++ more)

/-- The digits at the front are followed by no digit. -/
theorem isDigit_head?_digits (cs : List Char) :
    ∀ c ∈ (digits cs).2.head?, isDigit c = false := by
  intro c hc
  have h := List.head?_dropWhile_not isDigit cs
  rw [show (cs.dropWhile isDigit).head? = some c from hc] at h
  simpa using h

theorem digits_append_of_ne_nil {cs : List Char} (h : (digits cs).2 ≠ []) (more : List Char) :
    digits (cs ++ more) = ((digits cs).1, (digits cs).2 ++ more) := by
  have hall : ∀ d ∈ cs.takeWhile isDigit, isDigit d = true := fun d hd =>
    List.all_eq_true.1 List.all_takeWhile d hd
  have hhead : ∀ c ∈ ((digits cs).2 ++ more).head?, isDigit c = false := by
    obtain ⟨c, rest, hrest⟩ := List.exists_cons_of_ne_nil h
    have hc := isDigit_head?_digits cs
    rw [hrest] at hc ⊢
    exact hc
  have hcs : cs.takeWhile isDigit ++ (digits cs).2 = cs := List.takeWhile_append_dropWhile
  calc digits (cs ++ more)
      = digits (cs.takeWhile isDigit ++ ((digits cs).2 ++ more)) := by
        rw [← List.append_assoc, hcs]
    _ = ((digits cs).1, (digits cs).2 ++ more) := digits_append hall hhead

theorem someDigits_eq_found {cs rest : List Char} {n : Number}
    {next : List Nat → List Char → Scan} :
    someDigits cs next = .found n rest ↔
      (digits cs).1 ≠ [] ∧ next (digits cs).1 (digits cs).2 = .found n rest := by
  rcases h : digits cs with ⟨ds, tail⟩
  cases ds <;> cases tail <;> simp [someDigits, h]

theorem someDigits_stable {next : List Nat → List Char → Scan} (h : ∀ ds, Stable (next ds)) :
    Stable fun cs => someDigits cs next where
  nil := by
    intro n rest hfound
    cases hfound
  append := by
    intro cs n rest more hfound hrest
    obtain ⟨hds, hnext⟩ := someDigits_eq_found.1 hfound
    have hne : (digits cs).2 ≠ [] := by
      intro hnil
      rw [hnil] at hnext
      exact hrest ((h _).nil _ _ hnext)
    rw [someDigits_eq_found, digits_append_of_ne_nil hne]
    exact ⟨hds, (h _).append _ _ _ _ hnext hrest⟩

section

variable (negative : Bool) (whole fraction : List Nat)

/-- Reads the digits of an exponent after its sign. -/
def exponentDigits (minus : Bool) (cs : List Char) : Scan :=
  someDigits cs fun ds rest => .found ⟨negative, whole, fraction, some (minus, ds)⟩ rest

theorem exponentDigits_stable (minus : Bool) :
    Stable (exponentDigits negative whole fraction minus) :=
  someDigits_stable fun ds =>
    ⟨fun n rest h => by cases h; rfl, fun cs n rest more h _ => by cases h; rfl⟩

theorem scanExponent_sign {c : Char} (hmark : c = 'e' ∨ c = 'E') (sign : Char) (cs : List Char) :
    scanExponent negative whole fraction (c :: sign :: cs) =
      exponentDigits negative whole fraction (sign == '-')
        (if sign = '+' ∨ sign = '-' then cs else sign :: cs) := by
  by_cases hplus : sign = '+'
  · simp [scanExponent, exponentDigits, hmark, hplus]
  · by_cases hminus : sign = '-'
    · simp [scanExponent, exponentDigits, hmark, hminus]
    · have hsign : (sign == '-') = false := by simpa using hminus
      simp [scanExponent, exponentDigits, hmark, hplus, hminus, hsign]

@[simp] theorem scanExponent_other {c : Char} (hmark : ¬ (c = 'e' ∨ c = 'E')) (cs : List Char) :
    scanExponent negative whole fraction (c :: cs) =
      .found ⟨negative, whole, fraction, none⟩ (c :: cs) := by
  simp [scanExponent, hmark]

theorem scanExponent_stable : Stable (scanExponent negative whole fraction) where
  nil := by
    intro n rest hfound
    cases hfound
    rfl
  append := by
    intro cs n rest more hfound hrest
    match cs with
    | [] =>
        cases hfound
        exact absurd rfl hrest
    | c :: cs =>
        by_cases hmark : c = 'e' ∨ c = 'E'
        · match cs with
          | [] =>
              -- A sign may follow the mark, so the text is cut and not malformed.
              have hcut : scanExponent negative whole fraction [c] = .cut := by
                simp [scanExponent, hmark, someDigits, digits]
              rw [hcut] at hfound
              cases hfound
          | sign :: cs =>
              rw [scanExponent_sign negative whole fraction hmark] at hfound
              rw [List.cons_append, List.cons_append,
                scanExponent_sign negative whole fraction hmark]
              have h := (exponentDigits_stable negative whole fraction (sign == '-')).append
                _ _ _ more hfound hrest
              by_cases hsign : sign = '+' ∨ sign = '-'
              · rwa [if_pos hsign] at h ⊢
              · rwa [if_neg hsign] at h ⊢
        · rw [scanExponent_other negative whole fraction hmark] at hfound
          cases hfound
          exact scanExponent_other negative whole fraction hmark (cs ++ more)

end

theorem scanFraction_stable (negative : Bool) (whole : List Nat) :
    Stable (scanFraction negative whole) where
  nil := (scanExponent_stable negative whole []).nil
  append := by
    intro cs n rest more hfound hrest
    cases cs with
    | nil =>
        cases hfound
        exact absurd rfl hrest
    | cons c cs =>
        by_cases hdot : c = '.'
        · subst hdot
          exact (someDigits_stable fun ds => scanExponent_stable negative whole ds).append
            _ _ _ _ hfound hrest
        · have heq (cs : List Char) : scanFraction negative whole (c :: cs) =
              scanExponent negative whole [] (c :: cs) := by simp [scanFraction, hdot]
          rw [heq] at hfound
          rw [List.cons_append, heq]
          exact (scanExponent_stable negative whole []).append _ _ _ _ hfound hrest

theorem scanMagnitude_stable (negative : Bool) : Stable (scanMagnitude negative) := by
  refine someDigits_stable fun ds => ?_
  split
  · exact ⟨fun n rest h => (by cases h), fun cs n rest more h => (by cases h)⟩
  · exact scanFraction_stable negative ds

theorem scan_stable : Stable scan where
  nil := (scanMagnitude_stable false).nil
  append := by
    intro cs n rest more hfound hrest
    cases cs with
    | nil => cases hfound
    | cons c cs =>
        by_cases hminus : c = '-'
        · subst hminus
          exact (scanMagnitude_stable true).append _ _ _ _ hfound hrest
        · have heq (cs : List Char) : scan (c :: cs) = scanMagnitude false (c :: cs) :=
            scan_of_ne_minus (by simpa using hminus)
          rw [heq] at hfound
          rw [List.cons_append, heq]
          exact (scanMagnitude_stable false).append _ _ _ _ hfound hrest

/-! ## Grammar -/

/-- A run of digits, at least one, and what each of them counts. -/
structure SpellsDigits (ds : List Nat) (cs : List Char) : Prop where
  ne_nil : cs ≠ []
  isDigit : ∀ c ∈ cs, isDigit c = true
  eq_map : ds = cs.map fun c => c.toNat - 48

/-- The digits after the point, if there is one. -/
inductive SpellsFraction : List Nat → List Char → Prop where
  | none : SpellsFraction [] []
  | point {ds : List Nat} {cs : List Char} (h : SpellsDigits ds cs) : SpellsFraction ds ('.' :: cs)

/-- The sign of an exponent, which is negative if there is a minus. -/
inductive SpellsSign : Bool → List Char → Prop where
  | none : SpellsSign false []
  | plus : SpellsSign false ['+']
  | minus : SpellsSign true ['-']

/-- The exponent, if there is one. -/
inductive SpellsExponent : Option (Bool × List Nat) → List Char → Prop where
  | none : SpellsExponent none []
  | mark {c : Char} {minus : Bool} {sign : List Char} {ds : List Nat} {cs : List Char}
      (hmark : c = 'e' ∨ c = 'E') (hsign : SpellsSign minus sign) (h : SpellsDigits ds cs) :
      SpellsExponent (some (minus, ds)) (c :: (sign ++ cs))

/-- The spelling of a number. Only zero itself starts with the digit zero. -/
inductive Spells : Number → List Char → Prop where
  | mk {negative : Bool} {whole fraction : List Nat} {exponent : Option (Bool × List Nat)}
      {ws fs es : List Char} (hwhole : SpellsDigits whole ws)
      (hzero : ∀ d ds, whole ≠ 0 :: d :: ds) (hfraction : SpellsFraction fraction fs)
      (hexponent : SpellsExponent exponent es) :
      Spells ⟨negative, whole, fraction, exponent⟩
        ((if negative then ['-'] else []) ++ (ws ++ (fs ++ es)))

namespace SpellsDigits

variable {ds : List Nat} {cs rest : List Char}

theorem isDigit_head? (h : SpellsDigits ds cs) : ∀ c ∈ (cs ++ rest).head?, Number.isDigit c := by
  obtain ⟨c, tail, rfl⟩ := List.exists_cons_of_ne_nil h.ne_nil
  intro d hd
  obtain rfl : c = d := by simpa using hd
  exact h.isDigit _ List.mem_cons_self

/-- Digits are read up to the first character that is none. -/
theorem someDigits_eq (h : SpellsDigits ds cs) (hrest : ∀ c ∈ rest.head?, Number.isDigit c = false)
    (next : List Nat → List Char → Scan) : someDigits (cs ++ rest) next = next ds rest := by
  obtain ⟨c, tail, hcs⟩ := List.exists_cons_of_ne_nil h.ne_nil
  rw [someDigits, digits_append h.isDigit hrest, ← h.eq_map]
  have hne : ds ≠ [] := by simp [h.eq_map, hcs]
  cases ds with
  | nil => exact absurd rfl hne
  | cons d ds => rfl

end SpellsDigits

/-- Neither a digit nor a point starts what follows the digits after the point. -/
theorem SpellsExponent.head? {exponent : Option (Bool × List Nat)} {es rest : List Char}
    (h : SpellsExponent exponent es) (hends : Ends rest) :
    ∀ c ∈ (es ++ rest).head?, isDigit c = false ∧ c ≠ '.' := by
  cases h with
  | none => exact fun c hc => ⟨(hends c hc).1, (hends c hc).2.1⟩
  | mark hmark =>
      intro d hd
      obtain rfl : _ = d := by simpa using hd
      rcases hmark with rfl | rfl <;> decide

theorem SpellsFraction.head? {fraction : List Nat} {fs tail : List Char}
    (h : SpellsFraction fraction fs) (htail : ∀ c ∈ tail.head?, isDigit c = false) :
    ∀ c ∈ (fs ++ tail).head?, isDigit c = false := by
  cases h with
  | none => exact htail
  | point =>
      intro d hd
      obtain rfl : '.' = d := by simpa using hd
      decide

theorem scanExponent_of_spells {exponent : Option (Bool × List Nat)} {es rest : List Char}
    (h : SpellsExponent exponent es) (hends : Ends rest) (negative : Bool)
    (whole fraction : List Nat) :
    scanExponent negative whole fraction (es ++ rest) =
      .found ⟨negative, whole, fraction, exponent⟩ rest := by
  cases h with
  | none =>
      cases rest with
      | nil => rfl
      | cons c rest =>
          obtain ⟨-, -, he, hE⟩ := hends c rfl
          exact scanExponent_other negative whole fraction (not_or.2 ⟨he, hE⟩) rest
  | @mark c minus sign ds cs hmark hsign hdigits =>
      have hread : exponentDigits negative whole fraction minus (cs ++ rest) =
          .found ⟨negative, whole, fraction, some (minus, ds)⟩ rest :=
        hdigits.someDigits_eq (fun c hc => (hends c hc).1) _
      rw [List.cons_append, List.append_assoc]
      cases hsign with
      | none =>
          -- The first digit stands where a sign could.
          obtain ⟨d, tail, rfl⟩ := List.exists_cons_of_ne_nil hdigits.ne_nil
          have hd : isDigit d = true := hdigits.isDigit d List.mem_cons_self
          have hplus : d ≠ '+' := by
            rintro rfl
            exact absurd hd (by decide)
          have hminus : d ≠ '-' := by
            rintro rfl
            exact absurd hd (by decide)
          rw [List.nil_append, List.cons_append, scanExponent_sign negative whole fraction hmark,
            if_neg (not_or.2 ⟨hplus, hminus⟩), beq_false_of_ne hminus]
          exact hread
      | plus =>
          rw [List.singleton_append, scanExponent_sign negative whole fraction hmark,
            if_pos (.inl rfl)]
          exact hread
      | minus =>
          rw [List.singleton_append, scanExponent_sign negative whole fraction hmark,
            if_pos (.inr rfl)]
          exact hread

theorem scanFraction_of_spells {exponent : Option (Bool × List Nat)} {fraction : List Nat}
    {fs es rest : List Char} (hfraction : SpellsFraction fraction fs)
    (hexponent : SpellsExponent exponent es) (hends : Ends rest) (negative : Bool)
    (whole : List Nat) :
    scanFraction negative whole (fs ++ (es ++ rest)) =
      .found ⟨negative, whole, fraction, exponent⟩ rest := by
  have hexp := scanExponent_of_spells hexponent hends negative whole
  have hhead := hexponent.head? hends
  cases hfraction with
  | none =>
      rw [List.nil_append, ← hexp []]
      cases hrest : es ++ rest with
      | nil => rfl
      | cons c tail =>
          have hdot : c ≠ '.' := (hhead c (by rw [hrest]; rfl)).2
          simp [scanFraction, hdot]
  | point hdigits =>
      rw [List.cons_append, scanFraction, hdigits.someDigits_eq fun c hc => (hhead c hc).1]
      exact hexp fraction

/-- A number is read as spelled where no part of a number follows. -/
theorem scan_of_spells {n : Number} {cs rest : List Char} (h : Spells n cs) (hends : Ends rest) :
    scan (cs ++ rest) = .found n rest := by
  cases h with
  | @mk negative whole fraction exponent ws fs es hwhole hzero hfraction hexponent =>
      have hhead := hfraction.head? fun c hc => (hexponent.head? hends c hc).1
      have hmagnitude : scanMagnitude negative (ws ++ (fs ++ (es ++ rest))) =
          .found ⟨negative, whole, fraction, exponent⟩ rest := by
        rw [scanMagnitude, hwhole.someDigits_eq hhead]
        split
        -- The reader refuses a zero before other digits, and the grammar has no such number.
        · exact absurd rfl (hzero _ _)
        · exact scanFraction_of_spells hfraction hexponent hends negative whole
      simp only [List.append_assoc]
      cases negative with
      | true => exact hmagnitude
      | false =>
          refine (scan_of_ne_minus ?_).trans hmagnitude
          rintro c hc rfl
          exact absurd (hwhole.isDigit_head? _ hc) (by decide)

/-- The first character of a number is its sign or a digit. -/
theorem Spells.exists_cons {n : Number} {cs : List Char} (h : Spells n cs) :
    ∃ c tail, cs = c :: tail ∧ (c = '-' ∨ isDigit c = true) := by
  cases h with
  | @mk negative whole fraction exponent ws fs es hwhole hzero hfraction hexponent =>
      cases negative with
      | true => exact ⟨'-', _, rfl, .inl rfl⟩
      | false =>
          obtain ⟨c, tail, rfl⟩ := List.exists_cons_of_ne_nil hwhole.ne_nil
          exact ⟨c, _, rfl, .inr (hwhole.isDigit c List.mem_cons_self)⟩

/-! ## Written integers -/

/-- An integer as spelled. -/
def ofInt (n : Int) : Number := ⟨n < 0, decimals n.natAbs, [], none⟩

theorem integerText_of_nonneg {n : Int} (h : 0 ≤ n) :
    Value.integerText n = Nat.toDigits 10 n.natAbs := by
  obtain ⟨m, rfl⟩ := Int.eq_ofNat_of_zero_le h
  simp [Value.integerText, toString, Int.repr]

theorem integerText_of_neg {n : Int} (h : n < 0) :
    Value.integerText n = '-' :: Nat.toDigits 10 n.natAbs := by
  obtain ⟨m, rfl⟩ := Int.eq_negSucc_of_lt_zero h
  simp [Value.integerText, toString, Int.repr]

theorem spellsDigits_toDigits (n : Nat) : SpellsDigits (decimals n) (Nat.toDigits 10 n) :=
  ⟨Nat.toDigits_ne_nil, fun _ => isDigit_of_mem_toDigits, rfl⟩

/-- An integer is written as a number. -/
theorem spells_integerText (n : Int) : Spells (ofInt n) (Value.integerText n) := by
  have hspells (negative : Bool) : Spells ⟨negative, decimals n.natAbs, [], none⟩
      ((if negative then ['-'] else []) ++ (Nat.toDigits 10 n.natAbs ++ ([] ++ []))) :=
    .mk (spellsDigits_toDigits n.natAbs) (decimals_ne_zero_cons n.natAbs) .none .none
  rcases Int.lt_or_le n 0 with hneg | hpos
  · simpa [integerText_of_neg hneg, hneg, ofInt] using hspells true
  · simpa [integerText_of_nonneg hpos, Int.not_lt.2 hpos, ofInt] using hspells false

/-! ## Quantity -/

theorem le_foldl_digits (s : Nat) (ds : List Nat) :
    s ≤ ds.foldl (fun n d => n * 10 + d) s := by
  induction ds generalizing s with
  | nil => exact Nat.le_refl s
  | cons d ds ih => exact Nat.le_trans (by omega) (ih (s * 10 + d))

/-- Digits of a number that fits 64 bits are all gathered. -/
theorem gather_eq {s : Nat} {ds : List Nat}
    (h : ds.foldl (fun n d => n * 10 + d) s < UInt64.size) :
    gather s ds = (ds.foldl (fun n d => n * 10 + d) s, 0) := by
  induction ds generalizing s with
  | nil => rfl
  | cons d ds ih =>
      have hle := le_foldl_digits (s * 10 + d) ds
      rw [List.foldl_cons] at h ⊢
      rw [gather, if_pos (Nat.lt_of_le_of_lt hle h), ih h]

/-- The integers that are read as integers. -/
def InRange (n : Int) : Prop := -9223372036854775808 ≤ n ∧ n ≤ 18446744073709551615

@[simp] theorem gather_decimals {n : Nat} (h : n < UInt64.size) :
    gather 0 (decimals n) = (n, 0) := by
  have hn := ofDigits_decimals n
  rw [ofDigits] at hn
  rw [gather_eq (by rw [hn]; exact h), hn]

theorem quantity_ofInt {n : Int} (h : InRange n) : (ofInt n).quantity = some (.integer n) := by
  have hsize : n.natAbs < UInt64.size := by
    simp only [InRange, UInt64.size] at h ⊢
    omega
  have hlimit : Nat.pow 2 63 = 9223372036854775808 := rfl
  simp only [quantity, ofInt, gather_decimals hsize, List.isEmpty_nil, Option.isNone_none, hlimit]
  by_cases hneg : n < 0
  -- A negative zero, and what lies below `-2 ^ 63`, would be no integer.
  · have hsmall : ¬ (n.natAbs = 0 ∨ 9223372036854775808 < n.natAbs) := by
      simp only [InRange] at h
      omega
    have habs : -(n.natAbs : Int) = n := by omega
    simp only [hneg, decide_true, hsmall, and_self, if_true, not_true, if_false, habs]
  · have habs : (n.natAbs : Int) = n := by omega
    simp only [hneg, decide_false, and_self, if_true, habs, Bool.false_eq_true, not_false_eq_true]

end MachineAtlas.Json.Number
