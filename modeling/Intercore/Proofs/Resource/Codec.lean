import Intercore.Resource.Codec
import Mathlib.Data.Fin.SuccPred
import Mathlib.Data.Nat.Digits.Defs
import Mathlib.Tactic.Lemma

/-!
# Lawful layouts

A layout of fixed size is lawful if its values are the strings of that many bytes, and if reading is
writing backwards. All layouts that are put together from bytes and words are lawful. What is laid
out at an offset of some bytes can then be said field by field.
-/

namespace Intercore

/-- The `length` bytes from an offset on, or as many of them as there are. -/
def slice (bytes : List UInt8) (offset length : Nat) : List UInt8 := (bytes.drop offset).take length

/-- The number that is stored in some bytes, the lowest first. -/
def number (bytes : List UInt8) : Nat := Nat.ofDigits 256 (bytes.map UInt8.toNat)

section Slice

variable {bytes : List UInt8} {offset length : Nat}

lemma length_slice (h : offset + length ≤ bytes.length) :
    (slice bytes offset length).length = length := by
  simp only [slice, List.length_take, List.length_drop]
  omega

lemma length_slice_iff (h : 0 < length) :
    (slice bytes offset length).length = length ↔ offset + length ≤ bytes.length := by
  simp only [slice, List.length_take, List.length_drop]
  omega

lemma slice_add (bytes : List UInt8) (offset m n : Nat) :
    slice bytes offset (m + n) = slice bytes offset m ++ slice bytes (offset + m) n := by
  rw [slice, List.take_add, List.drop_drop, slice, slice]

lemma slice_slice {i n : Nat} (h : i + n ≤ length) :
    slice (slice bytes offset length) i n = slice bytes (offset + i) n := by
  rw [slice, slice, slice, List.drop_take, List.take_take, List.drop_drop,
    Nat.min_eq_left (Nat.le_sub_of_add_le' h)]

/-- Strings of the same length that store the same number are the same. -/
lemma eq_of_number_eq {bytes bytes' : List UInt8} (hlength : bytes.length = bytes'.length)
    (h : number bytes = number bytes') : bytes = bytes' := by
  have hdigit : ∀ s : List UInt8, ∀ d ∈ s.map UInt8.toNat, d < 256 := by
    intro s d hd
    obtain ⟨b, -, rfl⟩ := List.mem_map.mp hd
    exact b.toNat_lt
  have hmap := Nat.ofDigits_inj_of_len_eq (by decide) (by simpa using hlength) (hdigit bytes)
    (hdigit bytes') h
  exact (List.map_inj_right fun _ _ => UInt8.toNat_inj.mp).mp hmap

end Slice

namespace Codec

variable {α β : Type}

@[simp] lemma size_byte : byte.size = 1 := rfl

@[simp] lemma size_word : word.size = 4 := rfl

@[simp] lemma size_many (c : Codec α) (n : Nat) : (c.many n).size = n * c.size := rfl

/-- Every value is written in `size` bytes, every string of `size` bytes is what some value is
written in, and to read takes off the front exactly what the value that is read is written in. -/
class Lawful (c : Codec α) : Prop where
  length_encode : ∀ a, (c.encode a).length = c.size
  exists_encode : ∀ bytes : List UInt8, bytes.length = c.size → ∃ a, c.encode a = bytes
  decode_eq_some_iff : ∀ bytes a rest, c.decode bytes = some (a, rest) ↔ bytes = c.encode a ++ rest

instance : byte.Lawful where
  length_encode _ := rfl
  exists_encode bytes h := by
    obtain ⟨b, rfl⟩ := List.length_eq_one_iff.mp h
    exact ⟨b, rfl⟩
  decode_eq_some_iff bytes b rest := by
    cases bytes with
    | nil => simp [byte]
    | cons a tail => simp [byte]

/-!
### Words
-/

lemma or_shiftLeft {n low : Nat} (high : Nat) (h : low < 2 ^ n) :
    low ||| high <<< n = low + 2 ^ n * high := by
  rw [Nat.or_comm, ← Nat.shiftLeft_add_eq_or_of_lt h, Nat.shiftLeft_eq, Nat.add_comm, Nat.mul_comm]

lemma toNat_wordOf (a b c d : UInt8) : (wordOf a b c d).toNat = number [a, b, c, d] := by
  have ha := a.toNat_lt
  have hb := b.toNat_lt
  have hc := c.toNat_lt
  have hd := d.toNat_lt
  have hshift : ∀ (x : UInt8) (n : Nat), n ≤ 24 → x.toNat <<< n % 2 ^ 32 = x.toNat <<< n := by
    intro x n hn
    have hx := x.toNat_lt
    apply Nat.mod_eq_of_lt
    rw [Nat.shiftLeft_eq]
    calc x.toNat * 2 ^ n < 2 ^ 8 * 2 ^ n := Nat.mul_lt_mul_of_pos_right hx (Nat.two_pow_pos n)
      _ ≤ 2 ^ 8 * 2 ^ 24 := Nat.mul_le_mul_left _ (Nat.pow_le_pow_right (by decide) hn)
  simp only [wordOf, UInt32.toNat_or, UInt32.toNat_shiftLeft, UInt8.toNat_toUInt32,
    UInt32.reduceToNat, Nat.reduceMod, hshift _ _ (Nat.le_refl 24), hshift _ 16 (by decide),
    hshift _ 8 (by decide)]
  rw [or_shiftLeft b.toNat ha, or_shiftLeft c.toNat (by omega), or_shiftLeft d.toNat (by omega)]
  simp only [number, List.map_cons, List.map_nil, Nat.ofDigits_cons, Nat.ofDigits_nil]
  omega

lemma number_encode_word (w : UInt32) : number (word.encode w) = w.toNat := by
  have hw := w.toNat_lt
  simp only [word, number, List.map_cons, List.map_nil, Nat.ofDigits_cons, Nat.ofDigits_nil,
    UInt32.toNat_toUInt8, UInt32.toNat_shiftRight, UInt32.reduceToNat, Nat.reduceMod,
    Nat.shiftRight_eq_div_pow]
  omega

lemma encode_word_eq_iff {w : UInt32} {bytes : List UInt8} :
    word.encode w = bytes ↔ bytes.length = 4 ∧ number bytes = w.toNat := by
  constructor
  · rintro rfl
    exact ⟨rfl, number_encode_word w⟩
  · rintro ⟨hlength, hnumber⟩
    exact eq_of_number_eq hlength.symm ((number_encode_word w).trans hnumber.symm)

instance : word.Lawful where
  length_encode _ := rfl
  exists_encode bytes h := by
    match bytes, h with
    | [a, b, c, d], _ =>
      exact ⟨wordOf a b c d, encode_word_eq_iff.mpr ⟨rfl, (toNat_wordOf a b c d).symm⟩⟩
  decode_eq_some_iff bytes w rest := by
    constructor
    · intro h
      match bytes, h with
      | a :: b :: c :: d :: tail, h =>
        cases h
        rw [encode_word_eq_iff.mpr ⟨rfl, (toNat_wordOf a b c d).symm⟩]
        rfl
    · rintro rfl
      have hword : wordOf w.toUInt8 (w >>> 8).toUInt8 (w >>> 16).toUInt8 (w >>> 24).toUInt8 = w :=
        UInt32.toNat_inj.mp ((toNat_wordOf ..).trans (number_encode_word w))
      exact congrArg (fun v => some (v, rest)) hword

/-!
### Layouts made of layouts
-/

section Parts

variable {ca : Codec α} {cb : Codec β} {c : Codec α}

instance [ha : ca.Lawful] [hb : cb.Lawful] : (ca.pair cb).Lawful where
  length_encode p := by
    rw [Codec.pair, List.length_append, ha.length_encode, hb.length_encode]
  exists_encode bytes h := by
    have hsum : bytes.length = ca.size + cb.size := h
    obtain ⟨a, hfirst⟩ := ha.exists_encode (bytes.take ca.size) (by simp [hsum])
    obtain ⟨b, hsecond⟩ := hb.exists_encode (bytes.drop ca.size) (by simp [hsum])
    refine ⟨(a, b), ?_⟩
    simp only [Codec.pair]
    rw [hfirst, hsecond, List.take_append_drop]
  decode_eq_some_iff bytes p rest := by
    obtain ⟨a, b⟩ := p
    simp only [Codec.pair, Option.bind_eq_bind, Option.bind_eq_some_iff, Option.pure_def,
      Option.some.injEq, Prod.mk.injEq, Prod.exists, ha.decode_eq_some_iff, hb.decode_eq_some_iff]
    constructor
    · rintro ⟨_, _, rfl, _, _, rfl, ⟨rfl, rfl⟩, rfl⟩
      rw [List.append_assoc]
    · rintro rfl
      exact ⟨a, cb.encode b ++ rest, List.append_assoc _ _ _, b, rest, rfl, ⟨rfl, rfl⟩, rfl⟩

lemma Lawful.map [hc : c.Lawful] {into : α → β} {back : β → α} (hinto : ∀ b, into (back b) = b)
    (hback : ∀ a, back (into a) = a) : (c.map into back).Lawful where
  length_encode b := hc.length_encode (back b)
  exists_encode bytes h := by
    obtain ⟨a, rfl⟩ := hc.exists_encode bytes h
    exact ⟨into a, congrArg c.encode (hback a)⟩
  decode_eq_some_iff bytes b rest := by
    simp only [Codec.map, Option.map_eq_some_iff, Prod.exists, Prod.mk.injEq,
      hc.decode_eq_some_iff]
    constructor
    · rintro ⟨a, _, rfl, rfl, rfl⟩
      rw [hback]
    · rintro rfl
      exact ⟨back b, rest, rfl, hinto b, rfl⟩

lemma back_push {n : Nat} (v : Vector α n) (a : α) : (v.push a).back = a := by
  rw [Vector.back_eq_getElem]
  exact Vector.getElem_push_eq

lemma many_succ (c : Codec α) (n : Nat) : c.many (n + 1) =
    ((c.many n).pair c).map (fun (v, a) => v.push a) (fun v => (v.pop, v.back)) := by
  simp only [many, Codec.pair, Codec.map, Codec.mk.injEq]
  refine ⟨Nat.succ_mul n c.size, ?_, ?_⟩
  · funext v
    obtain ⟨w, a, rfl⟩ : ∃ (w : Vector α n) (a : α), v = w.push a := Vector.exists_push
    simp [Vector.toList_push, back_push]
  · funext bytes
    rw [decodeMany]
    cases h : c.decodeMany n bytes with
    | none => rfl
    | some p =>
      cases h' : c.decode p.2 with
      | none => simp [h']
      | some q => simp [h']

instance [c.Lawful] (n : Nat) : (c.many n).Lawful := by
  induction n with
  | zero =>
    constructor
    · intro v
      simp [Codec.many, Vector.eq_empty]
    · intro bytes h
      have hnil : bytes = [] := by simpa [Codec.many] using h
      exact ⟨#v[], hnil.symm⟩
    · intro bytes v rest
      obtain rfl : v = #v[] := Vector.eq_empty
      simp [Codec.many, decodeMany]
  | succ n ih =>
    rw [many_succ]
    apply Lawful.map
    · exact fun v => Vector.push_pop_back v
    · intro p
      simp [back_push]

end Parts

/-!
### What is laid out at an offset
-/

/-- The bytes at an offset are those that a value is written in. -/
def At (c : Codec α) (bytes : List UInt8) (offset : Nat) (a : α) : Prop :=
  slice bytes offset c.size = c.encode a

section At

variable {c : Codec α} {ca : Codec α} {cb : Codec β} {bytes : List UInt8} {offset : Nat}

lemma at_encode_append [hc : c.Lawful] (a : α) (rest : List UInt8) :
    c.At (c.encode a ++ rest) 0 a := by
  rw [At, slice, List.drop_zero, ← hc.length_encode a, List.take_left]

lemma At.within [hc : c.Lawful] (hsize : 0 < c.size) {a : α} (h : c.At bytes offset a) :
    offset + c.size ≤ bytes.length := by
  rw [← length_slice_iff hsize, h, hc.length_encode]

lemma exists_at [hc : c.Lawful] (h : offset + c.size ≤ bytes.length) :
    ∃ a, c.At bytes offset a := by
  obtain ⟨a, ha⟩ := hc.exists_encode (slice bytes offset c.size) (length_slice h)
  exact ⟨a, ha.symm⟩

lemma decode_drop_iff [hc : c.Lawful] {a : α} :
    (∃ rest, c.decode (bytes.drop offset) = some (a, rest)) ↔ c.At bytes offset a := by
  simp only [hc.decode_eq_some_iff]
  constructor
  · rintro ⟨rest, h⟩
    rw [At, slice, h, ← hc.length_encode a, List.take_left]
  · intro h
    refine ⟨(bytes.drop offset).drop c.size, ?_⟩
    rw [← h, slice, List.take_append_drop]

lemma at_slice {a : α} {length i : Nat} (h : i + c.size ≤ length) :
    c.At (slice bytes offset length) i a ↔ c.At bytes (offset + i) a := by
  rw [At, slice_slice h, At]

lemma at_iff_slice [c.Lawful] {n : Nat} (hn : c.size = n) (hpos : 0 < n) {a : α} :
    c.At bytes offset a ↔ offset + n ≤ bytes.length ∧ c.At (slice bytes offset n) 0 a := by
  subst hn
  rw [at_slice (Nat.le_of_eq (Nat.zero_add _)), Nat.add_zero]
  exact (and_iff_right_of_imp fun h => h.within hpos).symm

lemma at_word (h : offset + 4 ≤ bytes.length) {w : UInt32} :
    word.At bytes offset w ↔ number (slice bytes offset 4) = w.toNat := by
  rw [At, eq_comm, encode_word_eq_iff]
  exact and_iff_right (length_slice h)

lemma at_byte (h : offset + 1 ≤ bytes.length) {b : UInt8} :
    byte.At bytes offset b ↔ number (slice bytes offset 1) = b.toNat := by
  have hnumber : number [b] = b.toNat := by simp [number]
  rw [← hnumber]
  constructor
  · intro hat
    exact congrArg number hat
  · intro hat
    exact eq_of_number_eq (length_slice h) hat

lemma at_pair [ha : ca.Lawful] [hb : cb.Lawful] {a : α} {b : β} :
    (ca.pair cb).At bytes offset (a, b) ↔
      ca.At bytes offset a ∧ cb.At bytes (offset + ca.size) b := by
  simp only [At, Codec.pair, slice_add]
  constructor
  · intro h
    -- neither part can be too short for what is written in it
    have hlength := congrArg List.length h
    simp only [List.length_append, ha.length_encode, hb.length_encode, slice, List.length_take]
      at hlength
    apply List.append_inj h
    rw [ha.length_encode, slice, List.length_take]
    omega
  · rintro ⟨hfirst, hsecond⟩
    rw [hfirst, hsecond]

lemma at_map {into : α → β} {back : β → α} {b : β} :
    (c.map into back).At bytes offset b ↔ c.At bytes offset (back b) := Iff.rfl

lemma at_many [c.Lawful] {n : Nat} {v : Vector α n} :
    (c.many n).At bytes offset v ↔ ∀ i : Fin n, c.At bytes (offset + i * c.size) v[i] := by
  induction n with
  | zero => simp [At, Codec.many, slice, Vector.eq_empty]
  | succ n ih =>
    obtain ⟨w, a, rfl⟩ : ∃ (w : Vector α n) (a : α), v = w.push a := Vector.exists_push
    rw [many_succ, at_map, at_pair, Vector.pop_push, back_push, ih,
      Fin.forall_fin_succ']
    simp [Codec.many, Vector.getElem_push_lt]

end At

end Codec

end Intercore
