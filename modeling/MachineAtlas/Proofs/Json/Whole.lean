-- SUMMARY: Drafts without flaws are settled by their text, whatever follows it.
import MachineAtlas.Proofs.Json.Draft
/-!
# Whole drafts

A draft without flaws is that of a whole text: what follows the text does not change the draft. So
no proper front of a written object is read as a draft without flaws. Numbers are the exception, as
they are not closed by a mark of their own.
-/
namespace MachineAtlas.Json.Draft

/-- A value that a mark of its own or its last letter closes. -/
def isClosed : Draft → Bool
  | .number _ => false
  | _ => true

/-! ## Tokens -/

theorem skipBlanks_append {c : Char} {cs rest : List Char} (h : skipBlanks cs = c :: rest)
    (more : List Char) : skipBlanks (cs ++ more) = c :: (rest ++ more) := by
  have hfront : cs = cs.takeWhile isBlank ++ c :: rest := by
    rw [← h, skipBlanks, List.takeWhile_append_dropWhile]
  have hblank : ∀ d ∈ cs.takeWhile isBlank, isBlank d = true := fun d hd =>
    List.all_eq_true.1 List.all_takeWhile d hd
  have hc : isBlank c = false := by
    have hhead := List.head?_dropWhile_not isBlank cs
    rw [show cs.dropWhile isBlank = c :: rest from h] at hhead
    simpa using hhead
  rw [hfront, List.append_assoc, skipBlanks, List.dropWhile_append_of_pos hblank]
  exact skipBlanks_cons hc (rest ++ more)

theorem ne_nil_of_skipBlanks {c : Char} {cs rest : List Char} (h : skipBlanks cs = c :: rest) :
    cs ≠ [] := by
  rintro rfl
  cases h

theorem colon_append {cs rest : List Char} (h : colon cs = .ok rest) (more : List Char) :
    colon (cs ++ more) = .ok (rest ++ more) := by
  unfold colon at h ⊢
  split at h
  · rename_i hskip
    cases h
    simp [skipBlanks_append hskip]
  · cases h
  · cases h

/-- What stands in place of a colon is a flaw. -/
theorem flaw?_of_colon {cs : List Char} {d : Draft} (h : colon cs = .error d) :
    d.flaw? ≠ none := by
  unfold colon at h
  split at h <;> cases h <;> simp [flaw?]

theorem word_append {d meaning : Draft} {ws cs rest : List Char}
    (h : word meaning ws cs = (d, some rest)) (more : List Char) :
    word meaning ws (cs ++ more) = (d, some (rest ++ more)) := by
  fun_induction word meaning ws cs with
  | case1 => cases h; simp [word]
  | case2 => cases h
  | case3 ws c cs ih => simp [word, ih h]
  | case4 => cases h

theorem isSome_word {d meaning : Draft} {ws cs : List Char} {after : Option (List Char)}
    (h : word meaning ws cs = (d, after)) (hflaw : d.flaw? = none) : after.isSome = true := by
  fun_induction word meaning ws cs with
  | case1 => cases h; rfl
  | case2 => cases h; cases hflaw
  | case3 ws c cs ih => exact ih h
  | case4 => cases h; cases hflaw

theorem isSome_numeral {d : Draft} {cs : List Char} {after : Option (List Char)}
    (h : numeral cs = (d, after)) (hflaw : d.flaw? = none) : after.isSome = true := by
  unfold numeral at h
  split at h <;> cases h
  · rfl
  · cases hflaw
  · cases hflaw

/-- A number is read as a number, which may go on. -/
theorem isClosed_numeral {d : Draft} {cs rest : List Char} (h : numeral cs = (d, some rest)) :
    d.isClosed = false := by
  unfold numeral at h
  split at h <;> cases h
  rfl

theorem numeral_append {d : Draft} {cs rest : List Char} (h : numeral cs = (d, some rest))
    (hrest : rest ≠ []) (more : List Char) : numeral (cs ++ more) = (d, some (rest ++ more)) := by
  unfold numeral at h ⊢
  split at h
  · rename_i hfound
    cases h
    rw [Number.scan_stable.append _ _ _ more hfound hrest]
  · cases h
  · cases h

theorem isSome_quoted {d : Draft} {cs : List Char} {after : Option (List Char)}
    (h : quoted cs = (d, after)) (hflaw : d.flaw? = none) : after.isSome = true := by
  have hsome := Quoted.isSome_scan cs
  rcases hq : Quoted.scan cs with ⟨q, r⟩
  simp only [quoted, hq, Prod.mk.injEq] at h hsome
  obtain ⟨rfl, rfl⟩ := h
  rw [hsome, show q.flaw? = none from hflaw]
  rfl

theorem quoted_append {d : Draft} {cs rest : List Char} (h : quoted cs = (d, some rest))
    (more : List Char) : quoted (cs ++ more) = (d, some (rest ++ more)) := by
  rcases hq : Quoted.scan cs with ⟨q, after⟩
  simp only [quoted, hq, Prod.mk.injEq] at h
  obtain ⟨rfl, rfl⟩ := h
  simp [quoted, Quoted.scan_append hq more]

/-! ## Values -/

/-- What a reader with fuel finds to be without flaws is followed by the rest of the text, and
neither more text nor more fuel changes it, unless it stands open at the end of the text. -/
structure Settles {α : Type} (flaw? : α → Option Flaw) (isClosed : α → Bool)
    (read : Nat → List Char → α × Option (List Char)) (fuel : Nat) : Prop where
  goesOn : ∀ cs a after, read fuel cs = (a, after) → flaw? a = none → after.isSome = true
  append : ∀ cs a rest, read fuel cs = (a, some rest) → flaw? a = none →
    isClosed a = true ∨ rest ≠ [] →
    ∀ fuel' more, fuel ≤ fuel' → read fuel' (cs ++ more) = (a, some (rest ++ more))

abbrev ScanSettles (fuel : Nat) : Prop := Settles flaw? isClosed scan fuel
abbrev ScanItemsSettles (fuel : Nat) : Prop := Settles itemsFlaw? (fun _ => true) scanItems fuel
abbrev ScanItemSettles (fuel : Nat) : Prop := Settles itemsFlaw? (fun _ => true) scanItem fuel
abbrev ScanMembersSettles (fuel : Nat) : Prop :=
  Settles membersFlaw? (fun _ => true) scanMembers fuel
abbrev ScanMemberSettles (fuel : Nat) : Prop :=
  Settles membersFlaw? (fun _ => true) scanMember fuel

theorem scan_settles_succ {fuel : Nat} (hitems : ScanItemsSettles fuel)
    (hmembers : ScanMembersSettles fuel) : ScanSettles (fuel + 1) where
  goesOn := by
    intro cs d after h hflaw
    rw [scan] at h
    split at h
    · cases h; cases hflaw
    · exact isSome_word h hflaw
    · exact isSome_word h hflaw
    · exact isSome_word h hflaw
    · exact isSome_quoted h hflaw
    · rename_i rest _
      rcases hi : scanItems fuel rest with ⟨items, r⟩
      simp only [hi, Prod.mk.injEq] at h
      obtain ⟨rfl, rfl⟩ := h
      exact hitems.goesOn _ _ _ hi (by simpa [flaw?] using hflaw)
    · rename_i rest _
      rcases hi : scanMembers fuel rest with ⟨members, r⟩
      simp only [hi, Prod.mk.injEq] at h
      obtain ⟨rfl, rfl⟩ := h
      exact hmembers.goesOn _ _ _ hi (by simpa [flaw?] using hflaw)
    · split at h
      · exact isSome_numeral h hflaw
      · cases h; cases hflaw
  append := by
    intro cs d rest h hflaw hopen fuel' more hle
    obtain ⟨fuel', rfl⟩ : ∃ n, fuel' = n + 1 := ⟨fuel' - 1, by omega⟩
    rw [scan] at h
    split at h
    · cases h
    · rename_i hskip
      simp only [scan, skipBlanks_append hskip more]
      exact word_append h more
    · rename_i hskip
      simp only [scan, skipBlanks_append hskip more]
      exact word_append h more
    · rename_i hskip
      simp only [scan, skipBlanks_append hskip more]
      exact word_append h more
    · rename_i hskip
      simp only [scan, skipBlanks_append hskip more]
      exact quoted_append h more
    · rename_i tail hskip
      rcases hi : scanItems fuel tail with ⟨items, r⟩
      simp only [hi, Prod.mk.injEq] at h
      obtain ⟨rfl, rfl⟩ := h
      have hmore := hitems.append _ _ _ hi (by simpa [flaw?] using hflaw) (.inl rfl) fuel' more
        (by omega)
      simp [scan, skipBlanks_append hskip more, hmore]
    · rename_i tail hskip
      rcases hi : scanMembers fuel tail with ⟨members, r⟩
      simp only [hi, Prod.mk.injEq] at h
      obtain ⟨rfl, rfl⟩ := h
      have hmore := hmembers.append _ _ _ hi (by simpa [flaw?] using hflaw) (.inl rfl) fuel' more
        (by omega)
      simp [scan, skipBlanks_append hskip more, hmore]
    · rename_i c tail _ _ _ _ _ _ hskip
      split at h
      · rename_i hc
        -- A number is not closed by a mark of its own, so something has to follow it.
        have hrest : rest ≠ [] := hopen.resolve_left (by simp [isClosed_numeral h])
        rw [scan_numeral hc (skipBlanks_append hskip more)]
        exact numeral_append h hrest more
      · cases h

theorem scanItems_settles_succ {fuel : Nat} (hitem : ScanItemSettles fuel) :
    ScanItemsSettles (fuel + 1) where
  goesOn := by
    intro cs items after h hflaw
    rw [scanItems] at h
    split at h
    · cases h; cases hflaw
    · cases h; rfl
    · exact hitem.goesOn _ _ _ h hflaw
  append := by
    intro cs items rest h hflaw _ fuel' more hle
    obtain ⟨fuel', rfl⟩ : ∃ n, fuel' = n + 1 := ⟨fuel' - 1, by omega⟩
    rw [scanItems] at h
    split at h
    · cases h
    · rename_i hskip
      cases h
      simp [scanItems, skipBlanks_append hskip more]
    · rename_i hempty hclose
      obtain ⟨c, tail, hskip⟩ := List.exists_cons_of_ne_nil hempty
      rw [hskip] at h hclose
      have hmore := hitem.append _ _ _ h hflaw (.inl rfl) fuel' more (by omega)
      rw [scanItems, skipBlanks_append hskip more]
      split
      · rename_i heq
        cases heq
      · rename_i heq
        cases heq
        exact absurd rfl (hclose _)
      · exact hmore

/-- Elements without flaws start with one that a comma or the closing bracket follows. -/
theorem scanItem_cases {fuel : Nat} (hscan : ScanSettles fuel) {cs : List Char} {items : Items}
    {after : Option (List Char)} (h : scanItem (fuel + 1) cs = (items, after))
    (hflaw : itemsFlaw? items = none) :
    ∃ head between, scan fuel cs = (head, some between) ∧ head.flaw? = none ∧ between ≠ [] ∧
      ((∃ tail rest, skipBlanks between = ',' :: rest ∧ scanItem fuel rest = (tail, after) ∧
          itemsFlaw? tail = none ∧ items = .next head tail) ∨
        ∃ rest, skipBlanks between = ']' :: rest ∧ after = some rest ∧
          items = .next head .done) := by
  rcases hhead : scan fuel cs with ⟨head, _ | between⟩
  · simp only [scanItem, hhead, Prod.mk.injEq] at h
    obtain ⟨rfl, rfl⟩ := h
    simp only [itemsFlaw?, Option.or_eq_none_iff] at hflaw
    exact absurd (hscan.goesOn _ _ _ hhead hflaw.1) (by simp)
  · rw [scanItem, hhead] at h
    simp only [] at h
    split at h
    · cases h
      simp [itemsFlaw?] at hflaw
    · rename_i rest hskip
      rcases htail : scanItem fuel rest with ⟨tail, after'⟩
      simp only [htail, Prod.mk.injEq] at h
      obtain ⟨rfl, rfl⟩ := h
      simp only [itemsFlaw?, Option.or_eq_none_iff] at hflaw
      exact ⟨head, between, rfl, hflaw.1, ne_nil_of_skipBlanks hskip,
        .inl ⟨tail, rest, hskip, htail, hflaw.2, rfl⟩⟩
    · rename_i rest hskip
      cases h
      simp only [itemsFlaw?, Option.or_eq_none_iff] at hflaw
      exact ⟨head, between, rfl, hflaw.1, ne_nil_of_skipBlanks hskip, .inr ⟨rest, hskip, rfl, rfl⟩⟩
    · cases h
      simp [itemsFlaw?] at hflaw

theorem scanItem_settles_succ {fuel : Nat} (hscan : ScanSettles fuel)
    (hitem : ScanItemSettles fuel) : ScanItemSettles (fuel + 1) where
  goesOn := by
    intro cs items after h hflaw
    obtain ⟨head, between, -, -, -, ⟨tail, rest, -, htail, hclean, -⟩ | ⟨rest, -, rfl, -⟩⟩ :=
      scanItem_cases hscan h hflaw
    · exact hitem.goesOn _ _ _ htail hclean
    · rfl
  append := by
    intro cs items after h hflaw _ fuel' more hle
    obtain ⟨fuel', rfl⟩ : ∃ n, fuel' = n + 1 := ⟨fuel' - 1, by omega⟩
    obtain ⟨head, between, hhead, hclean, hne, hcases⟩ := scanItem_cases hscan h hflaw
    -- A mark follows the element, so even a number does not stand open at the end of the text.
    have hmore := hscan.append _ _ _ hhead hclean (.inr hne) fuel' more (by omega)
    rcases hcases with ⟨tail, rest, hskip, htail, hclean, rfl⟩ | ⟨rest, hskip, hafter, rfl⟩
    · have htail' := hitem.append _ _ _ htail hclean (.inl rfl) fuel' more (by omega)
      simp [scanItem, hmore, skipBlanks_append hskip more, htail']
    · cases hafter
      simp [scanItem, hmore, skipBlanks_append hskip more]

theorem scanMembers_settles_succ {fuel : Nat} (hmember : ScanMemberSettles fuel) :
    ScanMembersSettles (fuel + 1) where
  goesOn := by
    intro cs members after h hflaw
    rw [scanMembers] at h
    split at h
    · cases h; cases hflaw
    · cases h; rfl
    · exact hmember.goesOn _ _ _ h hflaw
  append := by
    intro cs members rest h hflaw _ fuel' more hle
    obtain ⟨fuel', rfl⟩ : ∃ n, fuel' = n + 1 := ⟨fuel' - 1, by omega⟩
    rw [scanMembers] at h
    split at h
    · cases h
    · rename_i hskip
      cases h
      simp [scanMembers, skipBlanks_append hskip more]
    · rename_i hempty hclose
      obtain ⟨c, tail, hskip⟩ := List.exists_cons_of_ne_nil hempty
      rw [hskip] at h hclose
      have hmore := hmember.append _ _ _ h hflaw (.inl rfl) fuel' more (by omega)
      rw [scanMembers, skipBlanks_append hskip more]
      split
      · rename_i heq
        cases heq
      · rename_i heq
        cases heq
        exact absurd rfl (hclose _)
      · exact hmore

/-- A member without flaws has a name, a value and a rest without flaws. -/
theorem membersFlaw?_next {key value : Draft} {tail : Members}
    (h : membersFlaw? (.next key value tail) = none) :
    key.flaw? = none ∧ key.isClosed = true ∧ value.flaw? = none ∧ membersFlaw? tail = none := by
  cases key <;> simp_all [membersFlaw?, flaw?, isClosed]

/-- Members without flaws start with one whose name and value have none, and which a comma or the
closing brace follows. -/
theorem scanMember_cases {fuel : Nat} (hscan : ScanSettles fuel) {cs : List Char}
    {members : Members} {after : Option (List Char)}
    (h : scanMember (fuel + 1) cs = (members, after)) (hflaw : membersFlaw? members = none) :
    ∃ key value named start between, scan fuel cs = (key, some named) ∧
      colon named = .ok start ∧ scan fuel start = (value, some between) ∧ between ≠ [] ∧
      ((∃ tail rest, skipBlanks between = ',' :: rest ∧ scanMember fuel rest = (tail, after) ∧
          members = .next key value tail) ∨
        ∃ rest, skipBlanks between = '}' :: rest ∧ after = some rest ∧
          members = .next key value .done) := by
  rcases hkey : scan fuel cs with ⟨key, _ | named⟩
  · simp only [scanMember, hkey, Prod.mk.injEq] at h
    obtain ⟨rfl, rfl⟩ := h
    exact absurd (membersFlaw?_next hflaw).2.2.1 (by simp [flaw?])
  rw [scanMember, hkey] at h
  simp only [] at h
  split at h
  · rename_i d hcolon
    cases h
    exact absurd (membersFlaw?_next hflaw).2.2.1 (flaw?_of_colon hcolon)
  rename_i start hcolon
  rcases hvalue : scan fuel start with ⟨value, _ | between⟩
  · simp only [hvalue, Prod.mk.injEq] at h
    obtain ⟨rfl, rfl⟩ := h
    exact absurd (hscan.goesOn _ _ _ hvalue (membersFlaw?_next hflaw).2.2.1) (by simp)
  simp only [hvalue] at h
  split at h
  · cases h
    exact absurd (membersFlaw?_next hflaw).2.2.2 (by simp [membersFlaw?])
  · rename_i rest hskip
    rcases htail : scanMember fuel rest with ⟨tail, after'⟩
    simp only [htail, Prod.mk.injEq] at h
    obtain ⟨rfl, rfl⟩ := h
    exact ⟨key, value, named, start, between, rfl, hcolon, hvalue, ne_nil_of_skipBlanks hskip,
      .inl ⟨tail, rest, hskip, htail, rfl⟩⟩
  · rename_i rest hskip
    cases h
    exact ⟨key, value, named, start, between, rfl, hcolon, hvalue, ne_nil_of_skipBlanks hskip,
      .inr ⟨rest, hskip, rfl, rfl⟩⟩
  · cases h
    exact absurd (membersFlaw?_next hflaw).2.2.2 (by simp [membersFlaw?])

theorem scanMember_settles_succ {fuel : Nat} (hscan : ScanSettles fuel)
    (hmember : ScanMemberSettles fuel) : ScanMemberSettles (fuel + 1) where
  goesOn := by
    intro cs members after h hflaw
    obtain ⟨key, value, named, start, between, -, -, -, -, ⟨tail, rest, -, htail, rfl⟩ |
      ⟨rest, -, rfl, -⟩⟩ := scanMember_cases hscan h hflaw
    · exact hmember.goesOn _ _ _ htail (membersFlaw?_next hflaw).2.2.2
    · rfl
  append := by
    intro cs members after h hflaw _ fuel' more hle
    obtain ⟨fuel', rfl⟩ : ∃ n, fuel' = n + 1 := ⟨fuel' - 1, by omega⟩
    obtain ⟨key, value, named, start, between, hkey, hcolon, hvalue, hne, hcases⟩ :=
      scanMember_cases hscan h hflaw
    have hcolon' := colon_append hcolon more
    -- The name is closed by its mark, and a comma or a brace follows the value.
    have hmore (tail : Members) (hclean : membersFlaw? (.next key value tail) = none) :
        scan fuel' (cs ++ more) = (key, some (named ++ more)) ∧
          scan fuel' (start ++ more) = (value, some (between ++ more)) := by
      obtain ⟨hk, hclosed, hv, -⟩ := membersFlaw?_next hclean
      exact ⟨hscan.append _ _ _ hkey hk (.inl hclosed) fuel' more (by omega),
        hscan.append _ _ _ hvalue hv (.inr hne) fuel' more (by omega)⟩
    rcases hcases with ⟨tail, rest, hskip, htail, rfl⟩ | ⟨rest, hskip, hafter, rfl⟩
    · obtain ⟨hkey', hvalue'⟩ := hmore tail hflaw
      have htail' := hmember.append _ _ _ htail (membersFlaw?_next hflaw).2.2.2 (.inl rfl) fuel'
        more (by omega)
      simp [scanMember, hkey', hcolon', hvalue', skipBlanks_append hskip more, htail']
    · obtain ⟨hkey', hvalue'⟩ := hmore .done hflaw
      cases hafter
      simp [scanMember, hkey', hcolon', hvalue', skipBlanks_append hskip more]

/-- Every reader settles on what it finds to be without flaws. -/
theorem settles (fuel : Nat) :
    ScanSettles fuel ∧ ScanItemsSettles fuel ∧ ScanItemSettles fuel ∧ ScanMembersSettles fuel ∧
      ScanMemberSettles fuel := by
  induction fuel with
  | zero =>
      refine ⟨⟨?_, ?_⟩, ⟨?_, ?_⟩, ⟨?_, ?_⟩, ⟨?_, ?_⟩, ⟨?_, ?_⟩⟩ <;>
        (intro cs a after h hflaw; cases h)
      all_goals cases hflaw
  | succ fuel ih =>
      obtain ⟨hscan, hitems, hitem, hmembers, hmember⟩ := ih
      exact ⟨scan_settles_succ hitems hmembers, scanItems_settles_succ hitem,
        scanItem_settles_succ hscan hitem, scanMembers_settles_succ hmember,
        scanMember_settles_succ hscan hmember⟩

/-! ## Fronts of objects -/

theorem fst_ofText (cs : List Char) : (ofText cs).1 = (scan (3 * cs.length + 3) cs).1 := by
  unfold ofText
  split <;> simp_all

/-- What starts with an opening brace is an object, however it goes on. -/
theorem isClosed_scan_brace (fuel : Nat) (cs : List Char) :
    (scan (fuel + 1) ('{' :: cs)).1.isClosed = true := by
  rw [scan, skipBlanks_cons (by decide)]
  rfl

/-- The draft of a proper front of a written object has a flaw. -/
theorem flaw?_of_front {members : List (String × Value)} {front rest : List Char}
    (h : front ++ rest = (Value.object members).compact) (hrest : rest ≠ []) :
    (ofText front).1.flaw? ≠ none := by
  intro hflaw
  rw [fst_ofText] at hflaw
  rcases hscan : scan (3 * front.length + 3) front with ⟨d, after⟩
  rw [hscan] at hflaw
  have hsettles := (settles (3 * front.length + 3)).1
  have hclosed : d.isClosed = true := by
    cases front with
    | nil =>
        rw [scan] at hscan
        cases hscan
        cases hflaw
    | cons c front =>
        obtain rfl : c = '{' := by
          rw [Value.compact] at h
          exact (List.cons.inj h).1
        have hbrace := isClosed_scan_brace (3 * ('{' :: front).length + 2) front
        rwa [hscan] at hbrace
  obtain ⟨after, rfl⟩ := Option.isSome_iff_exists.1 (hsettles.goesOn _ _ _ hscan hflaw)
  -- With the rest of its text the object would be read as the front alone, and end where that ends.
  have hwhole := readsTo_of_spells (Value.object members).spells_compact
    (3 * (Value.object members).compact.length + 3) [] (by omega) Number.ends_nil
  have hmore := hsettles.append _ _ _ hscan hflaw (.inl hclosed)
    (3 * (Value.object members).compact.length + 3) rest (by rw [← h, List.length_append]; omega)
  rw [List.append_nil] at hwhole
  rw [h, hwhole, Prod.mk.injEq, Option.some.injEq] at hmore
  exact hrest (List.append_eq_nil_iff.1 hmore.2.symm).2

end MachineAtlas.Json.Draft
