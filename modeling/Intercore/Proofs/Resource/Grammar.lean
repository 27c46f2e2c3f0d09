import Intercore.Proofs.Resource.Reading

/-!
# The grammar of resource tables

Which byte strings hold a table, and which table it is, said in numbers at offsets of the string.
The header comes first, then the offsets of the two entries. The entries may lie anywhere behind
them, in any order, and may overlap. No other byte matters.
-/

namespace Intercore

namespace Resource

/-!
### Parts of a table
-/

/-- The header that is stored in 16 bytes. -/
@[mk_iff]
structure Header.StoredIn (h : Header) (s : List UInt8) : Prop where
  ver : number (slice s 0 4) = h.ver.toNat
  num : number (slice s 4 4) = h.num.toNat
  reserved : ∀ i : Fin 2, number (slice s (8 + 4 * i) 4) = h.reserved[i].toNat

/-- The description of a ring that is stored in 20 bytes. -/
@[mk_iff]
structure VringDesc.StoredIn (v : VringDesc) (s : List UInt8) : Prop where
  da : number (slice s 0 4) = v.da.toNat
  align : number (slice s 4 4) = v.align.toNat
  num : number (slice s 8 4) = v.num.toNat
  notifyId : number (slice s 12 4) = v.notifyId.toNat
  reserved : number (slice s 16 4) = v.reserved.toNat

/-- The device entry that is stored in 68 bytes. -/
@[mk_iff]
structure Device.StoredIn (d : Device) (s : List UInt8) : Prop where
  type : number (slice s 0 4) = d.type.toNat
  id : number (slice s 4 4) = d.id.toNat
  notifyId : number (slice s 8 4) = d.notifyId.toNat
  dfeatures : number (slice s 12 4) = d.dfeatures.toNat
  gfeatures : number (slice s 16 4) = d.gfeatures.toNat
  configLen : number (slice s 20 4) = d.configLen.toNat
  status : number (slice s 24 1) = d.status.toNat
  numOfVrings : number (slice s 25 1) = d.numOfVrings.toNat
  reserved : ∀ i : Fin 2, number (slice s (26 + i) 1) = d.reserved[i].toNat
  tx : d.tx.StoredIn (slice s 28 20)
  rx : d.rx.StoredIn (slice s 48 20)

/-- The trace entry that is stored in 48 bytes. -/
@[mk_iff]
structure Trace.StoredIn (t : Trace) (s : List UInt8) : Prop where
  type : number (slice s 0 4) = t.type.toNat
  da : number (slice s 4 4) = t.da.toNat
  len : number (slice s 8 4) = t.len.toNat
  reserved : number (slice s 12 4) = t.reserved.toNat
  name : ∀ i : Fin 32, number (slice s (16 + i) 1) = t.name[i].toNat

open Codec

section Parts

variable {bytes : List UInt8} {offset : Nat}

lemma Header.at_iff {h : Header} : Header.codec.At bytes offset h ↔
    offset + 16 ≤ bytes.length ∧ h.StoredIn (slice bytes offset 16) := by
  refine (at_iff_slice (n := 16) rfl (by decide)).trans (and_congr_right fun hlength => ?_)
  have hs := length_slice hlength
  simp (disch := omega) only [Header.codec, at_map, at_pair, at_many, at_word, size_word,
    Nat.zero_add, Nat.reduceAdd, Nat.mul_comm, storedIn_iff]

lemma VringDesc.at_iff {v : VringDesc} : VringDesc.codec.At bytes offset v ↔
    offset + 20 ≤ bytes.length ∧ v.StoredIn (slice bytes offset 20) := by
  refine (at_iff_slice (n := 20) rfl (by decide)).trans (and_congr_right fun hlength => ?_)
  have hs := length_slice hlength
  simp (disch := omega) only [VringDesc.codec, at_map, at_pair, at_word, size_word, Nat.zero_add,
    Nat.reduceAdd, storedIn_iff]

lemma Device.at_iff {d : Device} : Device.codec.At bytes offset d ↔
    offset + 68 ≤ bytes.length ∧ d.StoredIn (slice bytes offset 68) := by
  refine (at_iff_slice (n := 68) rfl (by decide)).trans (and_congr_right fun hlength => ?_)
  have hs := length_slice hlength
  have hsize : VringDesc.codec.size = 20 := rfl
  simp (disch := omega) only [Device.codec, at_map, at_pair, at_many, at_word, at_byte, size_word,
    size_byte, size_many, hsize, VringDesc.at_iff, hs, Nat.mul_one, Nat.zero_add, Nat.reduceAdd,
    Nat.reduceLeDiff, true_and, storedIn_iff]

lemma Trace.at_iff {t : Trace} : Trace.codec.At bytes offset t ↔
    offset + 48 ≤ bytes.length ∧ t.StoredIn (slice bytes offset 48) := by
  refine (at_iff_slice (n := 48) rfl (by decide)).trans (and_congr_right fun hlength => ?_)
  have hs := length_slice hlength
  simp (disch := omega) only [Trace.codec, at_map, at_pair, at_many, at_word, at_byte, size_word,
    size_byte, Nat.mul_one, Nat.zero_add, Nat.reduceAdd, storedIn_iff]

end Parts

/-!
### Whole tables
-/

/-- Where the device entry of a table starts. -/
def deviceOffset (bytes : List UInt8) : Nat := number (slice bytes 16 4)

/-- Where the trace entry of a table starts. -/
def traceOffset (bytes : List UInt8) : Nat := number (slice bytes 20 4)

def deviceEntry (bytes : List UInt8) : List UInt8 := slice bytes (deviceOffset bytes) 68

def traceEntry (bytes : List UInt8) : List UInt8 := slice bytes (traceOffset bytes) 48

/-- There is room for an entry at an offset, which is a multiple of four behind the offsets. -/
@[mk_iff]
structure Room (bytes : List UInt8) (offset size : Nat) : Prop where
  behind : 24 ≤ offset
  aligned : 4 ∣ offset
  within : offset + size ≤ bytes.length

/-- The bytes hold a table with two entries, a message device with two rings and a trace buffer. -/
@[mk_iff]
structure HoldTable (bytes : List UInt8) : Prop where
  length : 24 ≤ bytes.length
  version : number (slice bytes 0 4) = 1
  entryCount : number (slice bytes 4 4) = 2
  device : Room bytes (deviceOffset bytes) 68
  deviceType : number (slice (deviceEntry bytes) 0 4) = 3
  deviceId : number (slice (deviceEntry bytes) 4 4) = 7
  vringCount : number (slice (deviceEntry bytes) 25 1) = 2
  trace : Room bytes (traceOffset bytes) 48
  traceType : number (slice (traceEntry bytes) 0 4) = 2

instance (bytes : List UInt8) (offset size : Nat) : Decidable (Room bytes offset size) :=
  decidable_of_iff _ (room_iff bytes offset size).symm

instance (bytes : List UInt8) : Decidable (HoldTable bytes) :=
  decidable_of_iff _ (holdTable_iff bytes).symm

lemma Offsets.at_iff {bytes : List UInt8} {o : Offsets} : Offsets.codec.At bytes 16 o ↔
    24 ≤ bytes.length ∧ deviceOffset bytes = o.device.toNat ∧
      traceOffset bytes = o.trace.toNat := by
  have hparts : Offsets.codec.At bytes 16 o ↔
      word.At bytes 16 o.device ∧ word.At bytes 20 o.trace := at_map.trans at_pair
  constructor
  · intro h
    have hlength : 16 + 8 ≤ bytes.length := h.within (by decide)
    obtain ⟨hdevice, htrace⟩ := hparts.mp h
    exact ⟨hlength, (at_word (by omega)).mp hdevice, (at_word (by omega)).mp htrace⟩
  · rintro ⟨hlength, hdevice, htrace⟩
    exact hparts.mpr ⟨(at_word (by omega)).mpr hdevice, (at_word (by omega)).mpr htrace⟩

end Resource

namespace ResourceTable

open Resource Codec

/-- The table that is stored in some bytes. The offsets are our own. -/
structure StoredIn (t : ResourceTable) (bytes : List UInt8) : Prop where
  header : t.header.StoredIn (slice bytes 0 16)
  offsets : t.offsets = ⟨24, 92⟩
  device : t.device.StoredIn (deviceEntry bytes)
  trace : t.trace.StoredIn (traceEntry bytes)

variable {t : ResourceTable} {bytes : List UInt8}

lemma holdTable_of_parse (h : parse bytes = .ok t) : HoldTable bytes ∧ t.StoredIn bytes := by
  obtain ⟨ht, o, hread⟩ := parse_eq_ok.mp h
  obtain ⟨-, hheader⟩ := Header.at_iff.mp hread.header
  obtain ⟨hlength, hdeviceOffset, htraceOffset⟩ := Offsets.at_iff.mp hread.offsets
  obtain ⟨hdeviceBehind, hdeviceAligned, hdeviceAt⟩ := hread.device
  obtain ⟨htraceBehind, htraceAligned, htraceAt⟩ := hread.trace
  rw [← hdeviceOffset] at hdeviceBehind hdeviceAligned hdeviceAt
  rw [← htraceOffset] at htraceBehind htraceAligned htraceAt
  obtain ⟨hdeviceWithin, hdevice⟩ := Device.at_iff.mp hdeviceAt
  obtain ⟨htraceWithin, htrace⟩ := Trace.at_iff.mp htraceAt
  have hver := hheader.ver
  have hnum := hheader.num
  rw [slice_slice (by decide), ht.version] at hver
  rw [slice_slice (by decide), ht.entryCount] at hnum
  constructor
  · exact
      { length := hlength
        version := hver
        entryCount := hnum
        device := ⟨hdeviceBehind, hdeviceAligned, hdeviceWithin⟩
        deviceType := hdevice.type.trans (congrArg UInt32.toNat ht.deviceType)
        deviceId := hdevice.id.trans (congrArg UInt32.toNat ht.deviceId)
        vringCount := hdevice.numOfVrings.trans (congrArg UInt8.toNat ht.vringCount)
        trace := ⟨htraceBehind, htraceAligned, htraceWithin⟩
        traceType := htrace.type.trans (congrArg UInt32.toNat ht.traceType) }
  · exact ⟨hheader, ht.offsets, hdevice, htrace⟩

lemma parse_of_storedIn (hbytes : HoldTable bytes) (ht : t.StoredIn bytes) :
    parse bytes = .ok t := by
  obtain ⟨o, ho⟩ : ∃ o, Offsets.codec.At bytes 16 o := exists_at hbytes.length
  obtain ⟨-, hdeviceOffset, htraceOffset⟩ := Offsets.at_iff.mp ho
  have hver := ht.header.ver
  have hnum := ht.header.num
  rw [slice_slice (by decide), hbytes.version] at hver
  rw [slice_slice (by decide), hbytes.entryCount] at hnum
  rw [parse_eq_ok]
  constructor
  · exact
      { version := UInt32.toNat_inj.mp hver.symm
        entryCount := UInt32.toNat_inj.mp hnum.symm
        offsets := ht.offsets
        deviceType := UInt32.toNat_inj.mp (ht.device.type.symm.trans hbytes.deviceType)
        deviceId := UInt32.toNat_inj.mp (ht.device.id.symm.trans hbytes.deviceId)
        vringCount := UInt8.toNat_inj.mp (ht.device.numOfVrings.symm.trans hbytes.vringCount)
        traceType := UInt32.toNat_inj.mp (ht.trace.type.symm.trans hbytes.traceType) }
  · refine ⟨o, Header.at_iff.mpr ⟨?_, ht.header⟩, ho, ?_, ?_⟩
    · exact (by decide : 0 + 16 ≤ 24).trans hbytes.length
    · rw [← hdeviceOffset]
      obtain ⟨hbehind, haligned, hwithin⟩ := hbytes.device
      exact ⟨hbehind, haligned, Device.at_iff.mpr ⟨hwithin, ht.device⟩⟩
    · rw [← htraceOffset]
      obtain ⟨hbehind, haligned, hwithin⟩ := hbytes.trace
      exact ⟨hbehind, haligned, Trace.at_iff.mpr ⟨hwithin, ht.trace⟩⟩

lemma exists_storedIn (h : HoldTable bytes) : ∃ t : ResourceTable, t.StoredIn bytes := by
  have hlength : 0 + Header.codec.size ≤ bytes.length := (by decide : 0 + 16 ≤ 24).trans h.length
  obtain ⟨header, hheader⟩ := exists_at hlength
  obtain ⟨device, hdevice⟩ := exists_at (c := Device.codec) h.device.within
  obtain ⟨trace, htrace⟩ := exists_at (c := Trace.codec) h.trace.within
  exact ⟨⟨header, ⟨24, 92⟩, device, trace⟩, (Header.at_iff.mp hheader).2, rfl,
    (Device.at_iff.mp hdevice).2, (Trace.at_iff.mp htrace).2⟩

/-- A table is read of exactly those bytes that hold one, and it is the table that is stored there.
So all that matters are the header and the two entries, not where the entries lie, in which order,
or what else there is. -/
theorem parse_grammar (bytes : List UInt8) :
    ((∃ t, parse bytes = .ok t) ↔ HoldTable bytes) ∧
      (∀ t, parse bytes = .ok t ↔ HoldTable bytes ∧ t.StoredIn bytes) ∧
      ∀ bytes', HoldTable bytes → HoldTable bytes' → slice bytes 0 16 = slice bytes' 0 16 →
        deviceEntry bytes = deviceEntry bytes' → traceEntry bytes = traceEntry bytes' →
        parse bytes = parse bytes' := by
  refine ⟨?_, ?_, ?_⟩
  · constructor
    · rintro ⟨t, h⟩
      exact (holdTable_of_parse h).1
    · intro h
      obtain ⟨t, ht⟩ := exists_storedIn h
      exact ⟨t, parse_of_storedIn h ht⟩
  · intro t
    exact ⟨holdTable_of_parse, fun h => parse_of_storedIn h.1 h.2⟩
  · intro bytes' h h' hheader hdevice htrace
    obtain ⟨t, ht⟩ := exists_storedIn h
    have ht' : t.StoredIn bytes' :=
      ⟨hheader ▸ ht.header, ht.offsets, hdevice ▸ ht.device, htrace ▸ ht.trace⟩
    rw [parse_of_storedIn h ht, parse_of_storedIn h' ht']

theorem parse_relocatedBoard : parse relocatedBoard = parse board.bytes :=
  (parse_grammar relocatedBoard).2.2 board.bytes (by decide +kernel) (by decide +kernel)
    (by decide +kernel) (by decide +kernel) (by decide +kernel)

end ResourceTable

end Intercore
