import Intercore.Proofs.Resource.Codec
import Intercore.Proofs.Resource.Soundness

/-!
# What is read of a table

A table is read from some bytes if its parts are laid out there, the entries where the offsets say,
and if the values that frame it are ours.
-/

namespace Intercore

namespace Resource

open Codec

instance : Header.codec.Lawful := Lawful.map (fun _ => rfl) (fun _ => rfl)

instance : VringDesc.codec.Lawful := Lawful.map (fun _ => rfl) (fun _ => rfl)

instance : Device.codec.Lawful := Lawful.map (fun _ => rfl) (fun _ => rfl)

instance : Trace.codec.Lawful := Lawful.map (fun _ => rfl) (fun _ => rfl)

instance : Offsets.codec.Lawful := Lawful.map (fun _ => rfl) (fun _ => rfl)

instance : tableCodec.Lawful := Lawful.map (fun _ => rfl) (fun _ => rfl)

/-- An entry is laid out at an offset where entries may be. -/
structure EntryAt {α : Type} (c : Codec α) (bytes : List UInt8) (offset : Nat) (a : α) : Prop where
  behind : 24 ≤ offset
  aligned : 4 ∣ offset
  laidOut : c.At bytes offset a

section Reading

variable {α : Type} {c : Codec α} [c.Lawful] {bytes : List UInt8} {a : α}

lemma front_drop_eq_ok {offset : Nat} :
    front c (bytes.drop offset) = .ok a ↔ c.At bytes offset a := by
  rw [← decode_drop_iff, front]
  cases c.decode (bytes.drop offset) with
  | none => simp
  | some p => simp [Prod.ext_iff]

lemma front_eq_ok : front c bytes = .ok a ↔ c.At bytes 0 a := by
  rw [← front_drop_eq_ok, List.drop_zero]

lemma entryAt_eq_ok (hsize : 0 < c.size) {offset : UInt32} :
    entryAt c bytes offset = .ok a ↔ EntryAt c bytes offset.toNat a := by
  simp only [entryAt, seq_eq_ok, require_eq_ok, front_drop_eq_ok, Bool.and_eq_true,
    decide_eq_true_eq, mod_eq_zero_iff_dvd]
  constructor
  · rintro ⟨⟨⟨hbehind, haligned⟩, -⟩, hat⟩
    exact ⟨hbehind, haligned, hat⟩
  · intro h
    have hwithin := h.laidOut.within hsize
    exact ⟨⟨⟨h.behind, h.aligned⟩, by omega⟩, h.laidOut⟩

end Reading

lemma Header.validate_eq_ok {h : Header} : h.validate = .ok () ↔ h.ver = 1 ∧ h.num = 2 := by
  simp only [validate, seq_eq_ok, require_eq_ok, decide_eq_true_eq]
  rfl

lemma Device.validate_eq_ok {d : Device} :
    d.validate = .ok () ↔ d.type = 3 ∧ d.id = 7 ∧ d.numOfVrings = 2 := by
  simp only [validate, seq_eq_ok, require_eq_ok, decide_eq_true_eq]
  rfl

lemma Trace.validate_eq_ok {t : Trace} : t.validate = .ok () ↔ t.type = 2 := by
  simp only [validate, require_eq_ok, decide_eq_true_eq]
  rfl

end Resource

namespace ResourceTable

open Resource

/-- A table is framed as our own tables are, and says that its entries are where ours are. -/
structure Normal (t : ResourceTable) : Prop where
  version : t.header.ver = 1
  entryCount : t.header.num = 2
  offsets : t.offsets = ⟨24, 92⟩
  deviceType : t.device.type = 3
  deviceId : t.device.id = 7
  vringCount : t.device.numOfVrings = 2
  traceType : t.trace.type = 2

lemma Normal.frame {t : ResourceTable} (h : t.Normal) : t.header.validate = .ok () ∧
    t.device.validate = .ok () ∧ t.trace.validate = .ok () :=
  ⟨Header.validate_eq_ok.mpr ⟨h.version, h.entryCount⟩,
    Device.validate_eq_ok.mpr ⟨h.deviceType, h.deviceId, h.vringCount⟩,
    Trace.validate_eq_ok.mpr h.traceType⟩

/-- The parts of a table are laid out in some bytes, the entries where the offsets there say. -/
structure ReadFrom (t : ResourceTable) (bytes : List UInt8) (o : Offsets) : Prop where
  header : Header.codec.At bytes 0 t.header
  offsets : Offsets.codec.At bytes 16 o
  device : EntryAt Device.codec bytes o.device.toNat t.device
  trace : EntryAt Trace.codec bytes o.trace.toNat t.trace

variable {t : ResourceTable} {bytes : List UInt8}

lemma parse_eq_ok : parse bytes = .ok t ↔ t.Normal ∧ ∃ offsets, t.ReadFrom bytes offsets := by
  have hsize : Header.codec.size = 16 := rfl
  simp only [parse, bind_eq_ok, Unique.exists_iff, PUnit.default_eq_unit,
    front_eq_ok (c := Header.codec), front_drop_eq_ok, hsize, Header.validate_eq_ok,
    Device.validate_eq_ok, Trace.validate_eq_ok,
    entryAt_eq_ok (show 0 < Device.codec.size by decide),
    entryAt_eq_ok (show 0 < Trace.codec.size by decide), pure, Except.pure, Except.ok.injEq]
  constructor
  · rintro ⟨_, hheader, ⟨hver, hnum⟩, offsets, hoffsets, _, hdevice, ⟨htype, hid, hcount⟩, _,
      htrace, htraceType, rfl⟩
    exact ⟨⟨hver, hnum, rfl, htype, hid, hcount, htraceType⟩, offsets,
      ⟨hheader, hoffsets, hdevice, htrace⟩⟩
  · rintro ⟨ht, offsets, h⟩
    refine ⟨t.header, h.header, ⟨ht.version, ht.entryCount⟩, offsets, h.offsets, t.device, h.device,
      ⟨ht.deviceType, ht.deviceId, ht.vringCount⟩, t.trace, h.trace, ht.traceType, ?_⟩
    obtain ⟨header, _, device, trace⟩ := t
    obtain rfl := ht.offsets
    rfl

/-- The table of the evaluation board as another tool may lay it out. The trace entry comes first,
and there are bytes of no meaning around the entries. -/
def relocatedBoard : List UInt8 :=
  Header.codec.encode board.header ++ Offsets.codec.encode ⟨76, 28⟩ ++ [1, 2, 3, 4] ++
    Trace.codec.encode board.trace ++ Device.codec.encode board.device ++ [5]

end ResourceTable

end Intercore
