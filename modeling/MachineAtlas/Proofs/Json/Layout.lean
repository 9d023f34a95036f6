-- SUMMARY: Layouts of lawful fields are lawful, and read their members in any order.
import MachineAtlas.Proofs.Json.Form
/-!
# Lawful layouts

A layout whose fields have lawful codecs and names of their own makes a lawful codec of records. The
members of an object may stand in any order: what has been found of a record is a function of the
names seen so far.
-/
namespace MachineAtlas.Json

/-- A field with a lawful codec, of which only the value of the missing field is left out. -/
structure Field.Lawful {α : Type} (field : Field α) : Prop where
  codec : field.codec.Lawful
  absent_of_omitted : ∀ a, field.omitted a = true → field.absent = some a

namespace Field

variable {α : Type} {name : String} {codec : Codec α}

theorem required_lawful (name : String) (h : codec.Lawful) : (required name codec).Lawful :=
  ⟨h, fun _ ha => by cases ha⟩

theorem default_lawful (name : String) (h : codec.Lawful) (value : α) :
    (default name codec value).Lawful :=
  ⟨h, fun _ ha => by cases ha⟩

theorem optional_lawful (name : String) (h : codec.Lawful) (hnull : ∀ a, codec.write a ≠ .null) :
    (optional name codec).Lawful where
  codec := Codec.option_lawful h hnull
  absent_of_omitted a ha := by
    cases a with
    | none => rfl
    | some a => cases ha

theorem nonempty_lawful (name : String) (h : codec.Lawful) : (nonempty name codec).Lawful where
  codec := Codec.list_lawful h
  absent_of_omitted as has := by
    cases as with
    | nil => rfl
    | cons a as => cases has

end Field

namespace Layout

/-- Every field is lawful and none has the name of a later one. -/
def Lawful : {ts : List Type} → Layout ts → Prop
  | _, .nil => True
  | _, .cons field fields => field.Lawful ∧ field.name ∉ fields.names ∧ fields.Lawful

/-! ## Objects -/

/-- The components of a tuple whose names have been seen. -/
def filled (seen : List String) : {ts : List Type} → Layout ts → Tuple ts → Slots ts
  | _, .nil, _ => ()
  | _, .cons field fields, (a, r) =>
    (if field.name ∈ seen then some a else none, fields.filled seen r)

/-- A member of that name says what the tuple holds, or nothing if there is no such field. -/
def Holds (name : String) (d : Draft) : {ts : List Type} → Layout ts → Tuple ts → Prop
  | _, .nil, _ => d.flaw? = none
  | _, .cons field fields, (a, r) =>
    if field.name = name then field.codec.read d = .ok a else fields.Holds name d r

/-- The components whose names have not been seen are those of missing fields. -/
def Spares (seen : List String) : {ts : List Type} → Layout ts → Tuple ts → Prop
  | _, .nil, _ => True
  | _, .cons field fields, (a, r) =>
    (field.name ∉ seen → field.absent = some a) ∧ fields.Spares seen r

@[simp] theorem filled_nil {ts : List Type} (layout : Layout ts) (t : Tuple ts) :
    layout.filled [] t = layout.blank := by
  induction layout with
  | nil => rfl
  | cons field fields ih =>
      obtain ⟨a, r⟩ := t
      simp only [filled, blank, ih r, List.not_mem_nil, if_false]
      rfl

/-- A name that is no field changes nothing. -/
theorem filled_cons_of_notMem {name : String} {seen : List String} {ts : List Type}
    {layout : Layout ts} (hname : name ∉ layout.names) (t : Tuple ts) :
    layout.filled (name :: seen) t = layout.filled seen t := by
  induction layout with
  | nil => rfl
  | cons field fields ih =>
      obtain ⟨a, r⟩ := t
      simp only [names, List.mem_cons, not_or] at hname
      simp only [filled, ih hname.2 r, List.mem_cons, Ne.symm hname.1, false_or]
      rfl

theorem store_of_notMem {name : String} {d : Draft} {ts : List Type} {layout : Layout ts}
    (hname : name ∉ layout.names) (slots : Slots ts) : layout.store name d slots = .ok none := by
  induction layout with
  | nil => rfl
  | cons field fields ih =>
      obtain ⟨slot, found⟩ := slots
      simp only [names, List.mem_cons, not_or] at hname
      simp only [store, Ne.symm hname.1, if_false, ih hname.2 found]
      rfl

theorem flaw?_of_holds {name : String} {d : Draft} {ts : List Type} {layout : Layout ts}
    {t : Tuple ts} (hname : name ∉ layout.names) (hholds : layout.Holds name d t) :
    d.flaw? = none := by
  induction layout with
  | nil => exact hholds
  | cons field fields ih =>
      obtain ⟨a, r⟩ := t
      simp only [names, List.mem_cons, not_or] at hname
      simp only [Holds, Ne.symm hname.1, if_false] at hholds
      exact ih hname.2 hholds

theorem holds_of_notMem {name : String} {d : Draft} {ts : List Type} {layout : Layout ts}
    (hname : name ∉ layout.names) (hflaw : d.flaw? = none) (t : Tuple ts) :
    layout.Holds name d t := by
  induction layout with
  | nil => exact hflaw
  | cons field fields ih =>
      obtain ⟨a, r⟩ := t
      simp only [names, List.mem_cons, not_or] at hname
      simpa only [Holds, Ne.symm hname.1, if_false] using ih hname.2 r

/-- A field that is seen for the first time is put to those found. -/
theorem store_filled {name : String} {d : Draft} {seen : List String} {ts : List Type}
    {layout : Layout ts} (hlawful : layout.Lawful) {t : Tuple ts} (hname : name ∈ layout.names)
    (hseen : name ∉ seen) (hholds : layout.Holds name d t) :
    layout.store name d (layout.filled seen t) = .ok (some (layout.filled (name :: seen) t)) := by
  induction layout with
  | nil => cases hname
  | cons field fields ih =>
      obtain ⟨a, r⟩ := t
      obtain ⟨-, hfresh, hfields⟩ := hlawful
      by_cases heq : field.name = name
      · subst heq
        simp only [Holds, if_true] at hholds
        simp only [store, filled, hseen, hholds, filled_cons_of_notMem hfresh, List.mem_cons_self,
          if_true, if_false]
        rfl
      · simp only [Holds, heq, if_false] at hholds
        have hmem : name ∈ fields.names := by
          rcases List.mem_cons.1 hname with rfl | h
          · exact absurd rfl heq
          · exact h
        simp only [store, filled, heq, ih hfields hmem hholds, List.mem_cons, false_or, if_false]
        rfl

theorem close_filled {seen : List String} {ts : List Type} {layout : Layout ts} {t : Tuple ts}
    (h : layout.Spares seen t) : layout.close (layout.filled seen t) = .ok t := by
  induction layout with
  | nil => rfl
  | cons field fields ih =>
      obtain ⟨a, r⟩ := t
      obtain ⟨hspare, hrest⟩ := h
      by_cases hmem : field.name ∈ seen
      · simp [close, filled, hmem, ih hrest, bind, Except.bind, pure, Except.pure]
      · simp [close, filled, hmem, hspare hmem, ih hrest, bind, Except.bind, pure, Except.pure]

/-- Members that hold the components of a tuple are read as that tuple, in whatever order they
stand, if those without a member are spared and no field stands there twice. -/
theorem readMembers_filled {ts : List Type} {layout : Layout ts} (hlawful : layout.Lawful)
    {t : Tuple ts} {members : Members} {listed : List (String × Draft)} {seen : List String}
    (hlists : members.Lists listed) (hholds : ∀ m ∈ listed, layout.Holds m.1 m.2 t)
    (honce : listed.Pairwise fun m n => m.1 = n.1 → m.1 ∉ layout.names)
    (hseen : ∀ m ∈ listed, m.1 ∈ layout.names → m.1 ∉ seen)
    (hspares : layout.Spares ((listed.map Prod.fst).reverse ++ seen) t) :
    layout.readMembers (layout.filled seen t) members = .ok t := by
  induction hlists generalizing seen with
  | done => exact close_filled hspares
  | @next q name d members rest hkey hlists ih =>
      have hhead := hholds _ List.mem_cons_self
      have htail := fun m hm => hholds m (List.mem_cons_of_mem _ hm)
      obtain ⟨hfirst, honce⟩ := List.pairwise_cons.1 honce
      -- Once the first member has been read, its name counts as seen.
      have hnext : layout.readMembers (layout.filled (name :: seen) t) members = .ok t := by
        apply ih htail honce
        · intro m hm hname hmem
          rcases List.mem_cons.1 hmem with heq | hmem
          · exact hfirst m hm heq.symm (heq ▸ hname)
          · exact hseen m (List.mem_cons_of_mem _ hm) hname hmem
        · simpa using hspares
      have hname : (Draft.text q).readKey = .ok name := by simp [Draft.readKey, hkey]
      rw [readMembers, hname]
      by_cases hmem : name ∈ layout.names
      · simp only [bind, Except.bind,
          store_filled hlawful hmem (hseen _ List.mem_cons_self hmem) hhead]
        exact hnext
      · rw [filled_cons_of_notMem hmem] at hnext
        simp only [bind, Except.bind, store_of_notMem hmem, flaw?_of_holds hmem hhead, passFlaw]
        exact hnext

/-! ## What fields leave -/

section

variable {ts : List Type} {layout : Layout ts} {forms : Forms ts} {t : Tuple ts}
  {kept : List (String × Draft)}

theorem mem_names_of_leaves (h : layout.Leaves forms t kept) {m : String × Draft} (hm : m ∈ kept) :
    m.1 ∈ layout.names := by
  induction layout generalizing kept with
  | nil =>
      rw [show kept = [] from h] at hm
      cases hm
  | cons field fields ih =>
      obtain ⟨form, forms⟩ := forms
      obtain ⟨a, r⟩ := t
      rcases h with ⟨-, hrest⟩ | ⟨d, rest, rfl, -, hrest⟩
      · exact List.mem_cons_of_mem _ (ih hrest hm)
      · rcases List.mem_cons.1 hm with rfl | hm
        · exact List.mem_cons_self
        · exact List.mem_cons_of_mem _ (ih hrest hm)

/-- No field leaves two members. -/
theorem pairwise_of_leaves (hlawful : layout.Lawful) (h : layout.Leaves forms t kept) :
    kept.Pairwise fun m n => m.1 ≠ n.1 := by
  induction layout generalizing kept with
  | nil =>
      rw [show kept = [] from h]
      exact .nil
  | cons field fields ih =>
      obtain ⟨form, forms⟩ := forms
      obtain ⟨a, r⟩ := t
      obtain ⟨-, hfresh, hfields⟩ := hlawful
      rcases h with ⟨-, hrest⟩ | ⟨d, rest, rfl, -, hrest⟩
      · exact ih hfields hrest
      · refine List.pairwise_cons.2 ⟨fun m hm heq => hfresh ?_, ih hfields hrest⟩
        rw [show field.name = m.1 from heq]
        exact mem_names_of_leaves hrest hm

theorem holds_of_leaves (hlawful : layout.Lawful) (h : layout.Leaves layout.reading t kept)
    {m : String × Draft} (hm : m ∈ kept) : layout.Holds m.1 m.2 t := by
  induction layout generalizing kept with
  | nil =>
      rw [show kept = [] from h] at hm
      cases hm
  | cons field fields ih =>
      obtain ⟨a, r⟩ := t
      obtain ⟨-, hfresh, hfields⟩ := hlawful
      have htail {rest : List (String × Draft)} (hrest : fields.Leaves fields.reading r rest)
          (hm : m ∈ rest) : Holds m.1 m.2 (.cons field fields) (a, r) := by
        have hne : field.name ≠ m.1 := fun heq => hfresh (heq ▸ mem_names_of_leaves hrest hm)
        simpa only [Holds, hne, if_false] using ih hfields hrest hm
      rcases h with ⟨-, hrest⟩ | ⟨d, rest, rfl, hread, hrest⟩
      · exact htail hrest hm
      · rcases List.mem_cons.1 hm with rfl | hm
        · simpa only [Holds, if_true] using hread
        · exact htail hrest hm

/-- The fields that leave no member are spared. -/
theorem spares_of_leaves (h : layout.Leaves forms t kept) {seen : List String}
    (hseen : ∀ m ∈ kept, m.1 ∈ seen) : layout.Spares seen t := by
  induction layout generalizing kept with
  | nil => trivial
  | cons field fields ih =>
      obtain ⟨form, forms⟩ := forms
      obtain ⟨a, r⟩ := t
      rcases h with ⟨habsent, hrest⟩ | ⟨d, rest, rfl, -, hrest⟩
      · exact ⟨fun _ => habsent, ih hrest hseen⟩
      · rw [List.forall_mem_cons] at hseen
        exact ⟨fun hnot => absurd hseen.1 hnot, ih hrest hseen.2⟩

/-- A record is read from what its fields leave and from members that are no fields, in any
order. -/
theorem readMembers_leaves (hlawful : layout.Lawful) (h : layout.Leaves layout.reading t kept)
    {members : Members} {listed foreign : List (String × Draft)} (hlists : members.Lists listed)
    (hperm : listed.Perm (kept ++ foreign))
    (hforeign : ∀ m ∈ foreign, m.1 ∉ layout.names ∧ m.2.flaw? = none) :
    layout.readMembers layout.blank members = .ok t := by
  rw [← filled_nil layout t]
  refine readMembers_filled hlawful hlists ?_ ?_ (fun _ _ _ => List.not_mem_nil) ?_
  · intro m hm
    rcases List.mem_append.1 (hperm.mem_iff.1 hm) with hm | hm
    · exact holds_of_leaves hlawful h hm
    · exact holds_of_notMem (hforeign m hm).1 (hforeign m hm).2 t
  · -- Among members that are fields the names differ, and the others are free to repeat.
    refine (hperm.pairwise_iff fun {m n} hmn heq => heq ▸ hmn heq.symm).2 ?_
    refine List.pairwise_append.2 ⟨?_, ?_, ?_⟩
    · exact (pairwise_of_leaves hlawful h).imp fun hne heq => absurd heq hne
    · exact List.pairwise_of_forall_mem_list fun m hm n _ _ => (hforeign m hm).1
    · exact fun m _ n hn heq => heq ▸ (hforeign n hn).1
  · refine spares_of_leaves h fun m hm => ?_
    rw [List.append_nil, List.mem_reverse]
    exact List.mem_map_of_mem (hperm.mem_iff.2 (List.mem_append_left _ hm))

end

/-! ## Writing -/

theorem lists_membersDraft (members : List (String × Value)) :
    (Value.membersDraft members).Lists (members.map fun m => (m.1, m.2.draft)) := by
  induction members with
  | nil => exact .done
  | cons m members ih =>
      obtain ⟨name, v⟩ := m
      exact .next (Quoted.text_ofChars name.toList) ih

/-- Each form is lawful for the codec of its field. -/
def Fits : {ts : List Type} → Layout ts → Forms ts → Prop
  | _, .nil, _ => True
  | _, .cons field fields, (form, forms) => form.Lawful field.codec ∧ fields.Fits forms

theorem fits_reading {ts : List Type} {layout : Layout ts} (hlawful : layout.Lawful) :
    layout.Fits layout.reading := by
  induction layout with
  | nil => trivial
  | cons field fields ih =>
      obtain ⟨hfield, -, hfields⟩ := hlawful
      exact ⟨⟨hfield.codec.read_write, fun _ _ hread _ => hread⟩, ih hfields⟩

/-- What is written is what the fields leave, in whatever forms. -/
theorem leaves_write {ts : List Type} {layout : Layout ts} {forms : Forms ts}
    (hlawful : layout.Lawful) (hfits : layout.Fits forms) (t : Tuple ts) :
    layout.Leaves forms t ((layout.write t).map fun m => (m.1, m.2.draft)) := by
  induction layout with
  | nil => rfl
  | cons field fields ih =>
      obtain ⟨form, forms⟩ := forms
      obtain ⟨a, r⟩ := t
      obtain ⟨hfield, -, hfields⟩ := hlawful
      obtain ⟨hform, hforms⟩ := hfits
      simp only [write]
      split
      · rename_i homitted
        exact .inl ⟨hfield.absent_of_omitted a homitted, ih hfields hforms r⟩
      · exact .inr ⟨_, _, rfl, hform.written a, ih hfields hforms r⟩

/-- A record is read back from the object that it is written as. -/
theorem readMembers_write {ts : List Type} {layout : Layout ts} (hlawful : layout.Lawful)
    (t : Tuple ts) :
    layout.readMembers layout.blank (Value.membersDraft (layout.write t)) = .ok t := by
  have hleaves := leaves_write hlawful (fits_reading hlawful) t
  refine readMembers_leaves hlawful hleaves (lists_membersDraft _) ?_
    fun _ hm => absurd hm List.not_mem_nil
  rw [List.append_nil]

/-! ## Flaws -/

theorem flaw?_of_store {name : String} {d : Draft} {ts : List Type} {layout : Layout ts}
    (hlawful : layout.Lawful) {slots after : Slots ts}
    (h : layout.store name d slots = .ok (some after)) : d.flaw? = none := by
  induction layout with
  | nil => cases h
  | cons field fields ih =>
      obtain ⟨slot, found⟩ := slots
      obtain ⟨hfield, -, hfields⟩ := hlawful
      simp only [store] at h
      split at h
      · cases slot with
        | some a => cases h
        | none =>
            obtain ⟨a, hread, -⟩ := bind_eq_ok.1 h
            exact hfield.codec.flawless _ _ hread
      · obtain ⟨found', hstore, hmap⟩ := bind_eq_ok.1 h
        cases found' with
        | none => cases hmap
        | some found' => exact ih hfields hstore

theorem membersFlaw?_of_readMembers {ts : List Type} {layout : Layout ts} (hlawful : layout.Lawful)
    {members : Members} {found : Slots ts} {t : Tuple ts}
    (h : layout.readMembers found members = .ok t) : Draft.membersFlaw? members = none := by
  fun_induction layout.readMembers found members with
  | case1 found => rfl
  | case2 found flaw => cases h
  | case3 found key value tail ihfield ihforeign =>
      obtain ⟨name, hkey, hmember⟩ := bind_eq_ok.1 h
      obtain ⟨q, rfl, hq⟩ := Codec.flaw?_of_readKey hkey
      obtain ⟨found', hstore, htail⟩ := bind_eq_ok.1 hmember
      cases found' with
      | some found' =>
          simp [Draft.membersFlaw?, hq, flaw?_of_store hlawful hstore, ihfield found' htail]
      | none =>
          obtain ⟨u, hpass, htail⟩ := bind_eq_ok.1 htail
          simp [Draft.membersFlaw?, hq, passFlaw_eq_ok.1 hpass, ihforeign htail]

theorem itemsFlaw?_of_readItems {ts : List Type} {layout : Layout ts} (hlawful : layout.Lawful)
    {record : String} {total index : Nat} {items : Items} {t : Tuple ts}
    (h : layout.readItems record total index items = .ok t) : Draft.itemsFlaw? items = none := by
  induction layout generalizing index items with
  | nil =>
      cases items with
      | done => rfl
      | _ => cases h
  | cons field fields ih =>
      obtain ⟨hfield, -, hfields⟩ := hlawful
      cases items with
      | done => rfl
      | stop flaw => cases h
      | next head tail =>
          obtain ⟨a, hread, hrest⟩ := bind_eq_ok.1 h
          obtain ⟨r, htail, -⟩ := bind_eq_ok.1 hrest
          simp [Draft.itemsFlaw?, hfield.codec.flawless _ _ hread, ih hfields htail]

theorem flaw?_of_read {ts : List Type} {layout : Layout ts} (hlawful : layout.Lawful)
    {record : String} {d : Draft} {t : Tuple ts} (h : layout.read record d = .ok t) :
    d.flaw? = none := by
  cases d with
  | array items => exact itemsFlaw?_of_readItems hlawful h
  | object members => exact membersFlaw?_of_readMembers hlawful h
  | _ => cases h

/-! ## Forms -/

/-- What fields leave in forms of theirs without flaws is read as their values. -/
theorem leaves_reading {ts : List Type} {layout : Layout ts} {forms : Forms ts} {t : Tuple ts}
    {kept : List (String × Draft)} (hfits : layout.Fits forms) (h : layout.Leaves forms t kept)
    (hflaw : ∀ m ∈ kept, m.2.flaw? = none) : layout.Leaves layout.reading t kept := by
  induction layout generalizing kept with
  | nil => exact h
  | cons field fields ih =>
      obtain ⟨form, forms⟩ := forms
      obtain ⟨a, r⟩ := t
      obtain ⟨hform, hforms⟩ := hfits
      rcases h with ⟨habsent, hrest⟩ | ⟨d, rest, rfl, hd, hrest⟩
      · exact .inl ⟨habsent, ih hforms hrest hflaw⟩
      · rw [List.forall_mem_cons] at hflaw
        exact .inr ⟨d, rest, rfl, hform.read a d hd hflaw.1, ih hforms hrest hflaw.2⟩

theorem flaw?_of_lists {members : Members} {listed : List (String × Draft)}
    (hlists : members.Lists listed) (hflaw : Draft.membersFlaw? members = none) :
    ∀ m ∈ listed, m.2.flaw? = none := by
  induction hlists with
  | done => exact fun _ hm => absurd hm List.not_mem_nil
  | next key tail ih =>
      simp only [Draft.membersFlaw?, Option.or_eq_none_iff] at hflaw
      rw [List.forall_mem_cons]
      exact ⟨hflaw.2.1, ih hflaw.2.2⟩

end Layout

/-- The form of a record is lawful if those of its fields are. -/
theorem Form.record_lawful {α : Type} {ts : List Type} {name : String} {layout : Layout ts}
    {forms : Forms ts} {unpack : α → Tuple ts} {pack : Tuple ts → α} (h : layout.Lawful)
    (hfits : layout.Fits forms) (hpack : ∀ a, pack (unpack a) = a) :
    (Form.record layout forms unpack).Lawful (Codec.record name layout unpack pack) where
  written a := ⟨_, _, _, [], rfl, Layout.lists_membersDraft _, by rw [List.append_nil],
    Layout.leaves_write h hfits _, fun _ hm => absurd hm List.not_mem_nil⟩
  read a d hform hflaw := by
    obtain ⟨members, listed, kept, foreign, rfl, hlists, hperm, hleaves, hforeign⟩ := hform
    -- Members that are no fields are read too, if only to pass over them, and must have no flaw.
    have hclean := Layout.flaw?_of_lists hlists hflaw
    have hkept : ∀ m ∈ kept, m.2.flaw? = none := fun m hm =>
      hclean m (hperm.mem_iff.2 (List.mem_append_left _ hm))
    have hread := Layout.readMembers_leaves h (Layout.leaves_reading hfits hleaves hkept) hlists
      hperm fun m hm => ⟨hforeign m hm, hclean m (hperm.mem_iff.2 (List.mem_append_right _ hm))⟩
    simp only [Codec.record, Layout.read, hread, Except.map, hpack]

/-- A lawful layout makes a lawful codec, if a record is packed from what it is unpacked to. -/
theorem Codec.record_lawful {α : Type} {ts : List Type} {name : String} {layout : Layout ts}
    {unpack : α → Tuple ts} {pack : Tuple ts → α} (h : layout.Lawful)
    (hpack : ∀ a, pack (unpack a) = a) : (Codec.record name layout unpack pack).Lawful where
  read_write a := by
    simp only [record, Value.draft, Layout.read, Layout.readMembers_write h, Except.map, hpack]
  flawless d a hread := by
    obtain ⟨t, hread, -⟩ := map_eq_ok.1 hread
    exact Layout.flaw?_of_read h hread

end MachineAtlas.Json
