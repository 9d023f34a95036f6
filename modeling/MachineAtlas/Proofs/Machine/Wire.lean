-- SUMMARY: The codecs of machine functions and their parts are lawful.
import MachineAtlas.Machine.Wire
import MachineAtlas.Proofs.Json.Layout
/-!
# Machine functions on the wire

The codec of machine functions and those of its parts are lawful. The names of opcodes are the one
part that is not built from fields: their keys are numbers between marks, and reading them in
ascending order puts each one at the end.
-/
namespace MachineAtlas

open Json (Codec Draft Fault Field Layout Members Quoted Value bind_eq_ok)
open Json.Codec (boolean_lawful int32_lawful int64_lawful list_lawful option_lawful record_lawful
  text_lawful uint32_lawful uint64_lawful variant_lawful)
open Json.Field (default_lawful nonempty_lawful optional_lawful required_lawful)

/-! ## Instructions -/

theorem InstrKind.codec_lawful : InstrKind.codec.Lawful :=
  variant_lawful fun k => by cases k <;> decide

theorem Instr.layout_lawful : Instr.layout.Lawful :=
  ⟨required_lawful _ uint32_lawful, by decide, default_lawful _ uint32_lawful _, by decide,
    default_lawful _ InstrKind.codec_lawful _, by decide, nonempty_lawful _ text_lawful, by decide,
    trivial⟩

theorem Instr.codec_lawful : Instr.codec.Lawful :=
  record_lawful Instr.layout_lawful fun _ => rfl

/-! ## Blocks -/

theorem Block.layout_lawful : Block.layout.Lawful := by
  have hedges : Codec.int32.option.list.Lawful :=
    list_lawful (option_lawful int32_lawful fun _ h => by cases h)
  exact ⟨required_lawful _ int32_lawful, by decide, required_lawful _ text_lawful, by decide,
    optional_lawful _ text_lawful (fun _ h => by cases h), by decide,
    default_lawful _ boolean_lawful _, by decide,
    default_lawful _ (list_lawful Instr.codec_lawful) _, by decide,
    default_lawful _ hedges _, by decide, default_lawful _ hedges _, by decide, trivial⟩

theorem Block.codec_lawful : Block.codec.Lawful :=
  record_lawful Block.layout_lawful fun _ => rfl

/-! ## Frames -/

theorem StackObject.layout_lawful : StackObject.layout.Lawful :=
  ⟨default_lawful _ int64_lawful _, by decide,
    default_lawful _ (option_lawful uint64_lawful fun _ h => by cases h) _, by decide,
    default_lawful _ boolean_lawful _, by decide, trivial⟩

theorem StackObject.codec_lawful : StackObject.codec.Lawful :=
  record_lawful StackObject.layout_lawful fun _ => rfl

theorem Frame.layout_lawful : Frame.layout.Lawful :=
  ⟨default_lawful _ (list_lawful StackObject.codec_lawful) _, by decide,
    default_lawful _ boolean_lawful _, by decide, default_lawful _ boolean_lawful _, by decide,
    default_lawful _ uint64_lawful _, by decide, default_lawful _ boolean_lawful _, by decide,
    optional_lawful _ int32_lawful (fun _ h => by cases h), by decide,
    optional_lawful _ int32_lawful (fun _ h => by cases h), by decide, trivial⟩

theorem Frame.codec_lawful : Frame.codec.Lawful :=
  record_lawful Frame.layout_lawful fun _ => rfl

/-! ## Modules and targets -/

theorem OwningModule.layout_lawful : OwningModule.layout.Lawful :=
  ⟨required_lawful _ text_lawful, by decide, default_lawful _ text_lawful _, by decide,
    trivial⟩

theorem OwningModule.codec_lawful : OwningModule.codec.Lawful :=
  record_lawful OwningModule.layout_lawful fun _ => rfl

namespace OpcodeNames

/-- The text of a key has no controls, so its characters are its pieces. -/
theorem frontChars_map {cs : List Char} (h : ∀ c ∈ cs, Quoted.isPlain c = true) :
    frontChars (cs.map Quoted.piece) = (cs, true) := by
  induction cs with
  | nil => rfl
  | cons c cs ih =>
      have hplain : Quoted.piece c = .char c := if_pos (h c List.mem_cons_self)
      rw [List.map_cons, hplain, frontChars, ih fun d hd => h d (List.mem_cons_of_mem _ hd)]

theorem isPlain_of_isDigit {c : Char} (h : Json.Number.isDigit c = true) :
    Quoted.isPlain c = true := by
  rw [Json.Number.isDigit_eq, Char.isDigit_iff_toNat] at h
  cases hplain : Quoted.isPlain c with
  | true => rfl
  | false =>
      have hlow := Quoted.toNat_lt_of_not_isPlain hplain
      have hzero : '0'.toNat ≤ c.toNat := h.1
      exact absurd (Nat.le_trans hzero (Nat.le_of_lt hlow)) (by decide)

/-- The key of an opcode is read as the opcode. -/
theorem readOpcode_toString (o : UInt32) :
    readOpcode (Quoted.ofChars (toString o.toNat).toList) = .ok o := by
  have hread : Codec.uint32.read (.number (Json.Number.ofInt o.toNat)) = .ok o :=
    uint32_lawful.read_write o
  have htext : (toString o.toNat).toList = Value.integerText o.toNat := rfl
  have hscan : Json.Number.scan (Value.integerText o.toNat) =
      .found (Json.Number.ofInt o.toNat) [] := by
    have h := Json.Number.scan_of_spells (Json.Number.spells_integerText o.toNat)
      Json.Number.ends_nil
    rwa [List.append_nil] at h
  have hdigits : ∀ c ∈ Value.integerText o.toNat, Json.Number.isDigit c = true := by
    rw [Json.Number.integerText_of_nonneg (by omega)]
    exact fun c hc => Json.Number.isDigit_of_mem_toDigits hc
  have hfront := frontChars_map fun c hc => isPlain_of_isDigit (hdigits c hc)
  obtain ⟨c, cs, hcons, hfirst⟩ := (Json.Number.spells_integerText o.toNat).exists_cons
  rw [htext, readOpcode, Quoted.ofChars, hfront, hcons]
  rw [hcons] at hscan
  simp [hfirst, hscan, hread, bind, Except.bind, pure, Except.pure]

theorem insertEntry_append {opcode : UInt32} {name : String} {l : List (UInt32 × String)}
    (h : ∀ e ∈ l, e.1 < opcode) : insertEntry opcode name l = l ++ [(opcode, name)] := by
  induction l with
  | nil => rfl
  | cons head rest ih =>
      obtain ⟨o, n⟩ := head
      have hlt : o < opcode := h _ List.mem_cons_self
      have hge : ¬ opcode < o := UInt32.lt_asymm hlt
      have hne : opcode ≠ o := (UInt32.ne_of_lt hlt).symm
      rw [insertEntry, if_neg hge, if_neg hne, ih fun e he => h e (List.mem_cons_of_mem _ he)]
      rfl

/-- The object of the entries after those read already. -/
def membersOf (entries : List (UInt32 × String)) : List (String × Value) :=
  entries.map fun (o, n) => (toString o.toNat, .text n)

/-- Reading goes on where an ascending list was left. -/
theorem readMembers_membersOf {final : OpcodeNames} (rest : List (UInt32 × String))
    {names : OpcodeNames} (h : names.entries ++ rest = final.entries) :
    readMembers names (Value.membersDraft (membersOf rest)) = .ok final := by
  induction rest generalizing names with
  | nil =>
      rw [List.append_nil] at h
      obtain ⟨entries, hentries⟩ := names
      obtain ⟨final, hfinal⟩ := final
      obtain rfl : entries = final := h
      rfl
  | cons e rest ih =>
      obtain ⟨o, n⟩ := e
      -- The entries ascend, so those read before are below the next one, which goes to the end.
      have hbelow : ∀ e ∈ names.entries, e.1 < o := by
        have hascending := final.ascending
        rw [← h] at hascending
        exact fun e he => (List.pairwise_append.1 hascending).2.2 e he (o, n) List.mem_cons_self
      have hinsert : (names.insert o n).entries ++ rest = final.entries := by
        have hend : (names.insert o n).entries = names.entries ++ [(o, n)] :=
          insertEntry_append hbelow
        rw [hend, ← h, List.append_assoc]
        rfl
      have hname : Codec.text.read (Draft.text (Quoted.ofChars n.toList)) = .ok n :=
        text_lawful.read_write n
      simp only [membersOf, List.map_cons, Value.membersDraft, readMembers, readKey,
        readOpcode_toString, Value.draft, hname, bind, Except.bind]
      exact ih hinsert

theorem flaw?_of_readOpcode {q : Quoted} {o : UInt32} (h : readOpcode q = .ok o) :
    q.flaw? = none := by
  simp only [readOpcode] at h
  split at h
  · cases h
  · split at h
    · split at h
      · obtain ⟨opcode, -, hend⟩ := bind_eq_ok.1 h
        split at hend
        · rename_i hwhole
          simp [Quoted.flaw?, hwhole.2.2, Quoted.Ending.flaw?]
        · cases hend
      · cases h
      · cases h
    · cases h

theorem membersFlaw?_of_readMembers {names after : OpcodeNames} {members : Members}
    (h : readMembers names members = .ok after) : Draft.membersFlaw? members = none := by
  fun_induction readMembers names members with
  | case1 names => rfl
  | case2 names flaw => cases h
  | case3 names key value tail ih =>
      obtain ⟨o, hkey, hvalue⟩ := bind_eq_ok.1 h
      obtain ⟨n, hname, htail⟩ := bind_eq_ok.1 hvalue
      cases key with
      | text q =>
          simp [Draft.membersFlaw?, flaw?_of_readOpcode hkey, text_lawful.flawless _ _ hname,
            ih o n htail]
      | _ => cases hkey

theorem codec_lawful : codec.Lawful where
  read_write names := readMembers_membersOf names.entries (List.nil_append _)
  flawless d names h := by
    cases d with
    | object members => exact membersFlaw?_of_readMembers h
    | _ => cases h

end OpcodeNames

theorem Target.layout_lawful : Target.layout.Lawful :=
  ⟨default_lawful _ text_lawful _, by decide, default_lawful _ OpcodeNames.codec_lawful _,
    by decide, trivial⟩

theorem Target.codec_lawful : Target.codec.Lawful :=
  record_lawful Target.layout_lawful fun _ => rfl

/-! ## Functions -/

theorem MachineFunction.layout_lawful : MachineFunction.layout.Lawful :=
  ⟨required_lawful _ text_lawful, by decide, default_lawful _ uint32_lawful _, by decide,
    optional_lawful _ text_lawful (fun _ h => by cases h), by decide,
    default_lawful _ Frame.codec_lawful _, by decide,
    default_lawful _ (list_lawful Block.codec_lawful) _, by decide,
    optional_lawful _ OwningModule.codec_lawful (fun _ h => by cases h), by decide,
    optional_lawful _ Target.codec_lawful (fun _ h => by cases h), by decide, trivial⟩

/-- A machine function loses nothing on the wire. -/
theorem MachineFunction.codec_lawful : MachineFunction.codec.Lawful :=
  record_lawful MachineFunction.layout_lawful fun _ => rfl

end MachineAtlas
