import Mathlib.Data.List.TakeWhile
import Intercore.Proofs.Board.Agreement

/-!
# The name of the trace buffer

A table keeps the name of the trace buffer in a fixed number of bytes and tells its end by a zero
byte. The check of a board makes sure that the name is not cut for want of space. It accepts names
that have a zero character inside, and of these a table tells only what is in front of it.
-/

namespace Intercore

namespace Text

lemma toList_loop_eq (bytes : ByteArray) (i : Nat) (acc : List UInt8) :
    ByteArray.toList.loop bytes i acc = acc.reverse ++ bytes.data.toList.drop i := by
  induction i, acc using ByteArray.toList.loop.induct bytes with
  | case1 i acc hi ih =>
    have hlen : i < bytes.data.toList.length := hi
    rw [ByteArray.toList.loop, if_pos hi, ih, List.drop_eq_getElem_cons hlen, List.reverse_cons,
      List.append_assoc, List.singleton_append, Array.getElem_toList]
    congr 2
    exact getElem!_pos bytes.data i hi
  | case2 i acc hi =>
    have hlen : bytes.data.toList.length ≤ i := Nat.le_of_not_lt hi
    rw [ByteArray.toList.loop, if_neg hi, List.drop_eq_nil_of_le hlen, List.append_nil]

lemma toList_eq (bytes : ByteArray) : bytes.toList = bytes.data.toList :=
  toList_loop_eq bytes 0 []

lemma toList_toUTF8 (s : String) : s.toUTF8.toList = s.toList.flatMap String.utf8EncodeChar := by
  rw [String.toUTF8_eq_toByteArray, ← String.utf8Encode_toList, toList_eq, List.utf8Encode,
    List.toList_data_toByteArray]

lemma length_toUTF8 (s : String) : s.toUTF8.toList.length = s.utf8ByteSize := by
  rw [toList_eq]
  rfl

/-- Of all characters, only the zero character has a zero byte. -/
lemma zero_mem_utf8EncodeChar {c : Char} : 0 ∈ String.utf8EncodeChar c ↔ c = '\x00' := by
  have hcode : c = '\x00' ↔ c.val.toNat = 0 := by
    rw [← Char.val_inj, ← UInt32.toNat_inj]
    rfl
  have hbyte (n : Nat) : 0 = UInt8.ofNat n ↔ n % 256 = 0 := by
    rw [← UInt8.toNat_inj, eq_comm]
    simp
  rw [hcode]
  -- in front of a longer character, and in all bytes behind it, the highest bit is set
  fun_cases String.utf8EncodeChar c with
  | _ =>
    simp only [List.mem_cons, List.not_mem_nil, or_false, hbyte]
    omega

lemma takeWhile_flatMap_utf8 (cs : List Char) :
    (cs.flatMap String.utf8EncodeChar).takeWhile (· ≠ 0) =
      (cs.takeWhile (· ≠ '\x00')).flatMap String.utf8EncodeChar := by
  induction cs with
  | nil => rfl
  | cons c cs ih =>
    by_cases hc : c = '\x00'
    · subst hc
      rfl
    · have hbytes : ∀ byte ∈ String.utf8EncodeChar c, decide (byte ≠ 0) = true := by
        intro byte hbyte
        rw [decide_eq_true_eq]
        rintro rfl
        exact hc (zero_mem_utf8EncodeChar.mp hbyte)
      rw [List.flatMap_cons, List.takeWhile_append_of_pos hbytes, ih,
        List.takeWhile_cons_of_pos (by simpa using hc), List.flatMap_cons]

end Text

namespace Resource

lemma toList_nameBytes (name : String) : (nameBytes name).toList =
    name.toUTF8.toList.take 31 ++ .replicate (32 - (name.toUTF8.toList.take 31).length) 0 := by
  have hcut := List.length_take_le 31 name.toUTF8.toList
  rw [nameBytes, Vector.toList_ofFn]
  apply List.ext_getElem
  · rw [List.length_ofFn, List.length_append, List.length_replicate]
    omega
  · intro i hi _
    simp only [List.getElem_ofFn, Fin.getElem?_fin, List.getElem_append, List.getElem_replicate]
    split
    case isTrue h => rw [List.getElem?_eq_getElem h, Option.getD_some]
    case isFalse h => rw [List.getElem?_eq_none (Nat.le_of_not_lt h), Option.getD_none]

end Resource

namespace ResourceTable

open Resource

lemma traceName_ofLayout (l : Layout) : (ofLayout l).traceName =
    (l.traceName.toUTF8.toList.take 31).takeWhile (· ≠ 0) := by
  have hzeros (n : Nat) : (List.replicate n (0 : UInt8)).takeWhile (· ≠ 0) = [] := by
    simp
  rw [traceName, ofLayout, toList_nameBytes, List.takeWhile_append, hzeros, List.append_nil]
  split
  case isTrue h => exact ((List.takeWhile_prefix _).eq_of_length h).symm
  case isFalse => rfl

end ResourceTable

namespace Board

open Resource ResourceTable Text

/-- What a table of the board tells of the name of the trace buffer. -/
def heardName (b : Board) : String := .ofList (b.trace.name.toList.takeWhile (· ≠ '\x00'))

lemma utf8ByteSize_lt_of_check {b : Board} (h : b.check = .ok ()) :
    b.trace.name.utf8ByteSize < 32 := by
  simp only [check, checkLocated, bind_assoc, seq_eq_ok, require_eq_ok, decide_eq_true_eq] at h
  obtain ⟨-, -, -, -, -, -, -, -, -, hname, -⟩ := h
  exact hname

/-- If a board passes its check, its table, and what is read from the bytes of its table, tells the
name of the trace buffer up to the first zero character. This is all of the name if and only if the
name has no such character. -/
theorem traceName_of_check (b : Board) (h : b.check = .ok ()) :
    (ofLayout (.ofBoard b)).traceName = b.heardName.toUTF8.toList ∧
      (∀ rest, ∃ t, parse ((ofLayout (.ofBoard b)).bytes ++ rest) = .ok t ∧
        t.traceName = b.heardName.toUTF8.toList) ∧
      (b.heardName.toUTF8.toList = b.trace.name.toUTF8.toList ↔
        '\x00' ∉ b.trace.name.toList) := by
  have hsize : b.trace.name.toUTF8.toList.length ≤ 31 := by
    rw [length_toUTF8]
    exact Nat.le_of_lt_succ (utf8ByteSize_lt_of_check h)
  have hheard : b.heardName.toUTF8.toList = b.trace.name.toUTF8.toList.takeWhile (· ≠ 0) := by
    rw [toList_toUTF8, toList_toUTF8, takeWhile_flatMap_utf8, heardName, String.toList_ofList]
  have htable : (ofLayout (.ofBoard b)).traceName = b.heardName.toUTF8.toList := by
    rw [traceName_ofLayout, hheard]
    exact congrArg _ (List.take_of_length_le hsize)
  refine ⟨htable, ?_, ?_⟩
  · intro rest
    have hnormal := normal_ofLayout (.ofBoard b)
    exact ⟨_, parse_eq_ok.mpr ⟨hnormal, _, hnormal.readFrom_bytes rest⟩, htable⟩
  · have hnul : (0 : UInt8) ∈ b.trace.name.toUTF8.toList ↔ '\x00' ∈ b.trace.name.toList := by
      rw [toList_toUTF8]
      simp [zero_mem_utf8EncodeChar]
    rw [hheard, List.takeWhile_eq_self_iff, ← hnul]
    simp [List.forall_mem_ne']

theorem traceName_of_check_evaluation :
    ResourceTable.board.traceName = evaluation.heardName.toUTF8.toList ∧
      evaluation.heardName.toUTF8.toList = "rt-core-log".toUTF8.toList :=
  have h := traceName_of_check evaluation (by decide +kernel)
  ⟨h.1, h.2.2.mpr (by decide +kernel)⟩

/-- The evaluation board, with a zero character in the name of its trace buffer. -/
def splitName : Board :=
  { evaluation with trace := { evaluation.trace with name := "rt\x00core" } }

/-- What stands behind a zero character is lost. -/
theorem traceName_cut_at_zero : splitName.check = .ok () ∧
    (ofLayout (.ofBoard splitName)).traceName = "rt".toUTF8.toList ∧
    parse (ofLayout (.ofBoard splitName)).bytes = .ok (ofLayout (.ofBoard splitName)) ∧
    "rt".toUTF8.toList ≠ splitName.trace.name.toUTF8.toList := by
  decide +kernel

end Board

end Intercore
