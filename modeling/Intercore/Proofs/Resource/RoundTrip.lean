import Intercore.Proofs.Resource.Reading

/-!
# Writing a table and reading it back

A table in normal form is read back from the bytes it is written in, whatever follows them. All
tables that are read, and all tables of our own, are in normal form.
-/

namespace Intercore

open Resource Codec

namespace ResourceTable

variable {t : ResourceTable}

lemma normal_ofLayout (l : Layout) : (ofLayout l).Normal := ⟨rfl, rfl, rfl, rfl, rfl, rfl, rfl⟩

lemma length_bytes (t : ResourceTable) : t.bytes.length = 140 := Lawful.length_encode t

/-- The entries of a table in normal form are written where it says. -/
lemma Normal.readFrom_bytes (ht : t.Normal) (rest : List UInt8) :
    t.ReadFrom (t.bytes ++ rest) t.offsets := by
  have hat : tableCodec.At (t.bytes ++ rest) 0 t := at_encode_append t rest
  simp only [tableCodec, at_map, at_pair] at hat
  obtain ⟨hheader, hoffsets, hdevice, htrace⟩ := hat
  rw [ht.offsets] at hoffsets ⊢
  exact
    { header := hheader
      offsets := hoffsets
      device := ⟨by decide, by decide, hdevice⟩
      trace := ⟨by decide, by decide, htrace⟩ }

/-- Tables in normal form are read back from what they are written in, with anything behind it. Our
own tables are of this kind, and so is every table that is read: to write it once more gives 140
bytes from which it is read again, wherever its entries were before. -/
theorem parse_bytes :
    (∀ t : ResourceTable, t.Normal → ∀ rest, parse (t.bytes ++ rest) = .ok t) ∧
      (∀ l : Layout, (ofLayout l).Normal) ∧
      ∀ bytes t, parse bytes = .ok t → t.bytes.length = 140 ∧ parse t.bytes = .ok t := by
  have hback : ∀ t : ResourceTable, t.Normal → ∀ rest, parse (t.bytes ++ rest) = .ok t :=
    fun t ht rest => parse_eq_ok.mpr ⟨ht, _, ht.readFrom_bytes rest⟩
  refine ⟨hback, normal_ofLayout, ?_⟩
  intro bytes t h
  obtain ⟨ht, -⟩ := parse_eq_ok.mp h
  exact ⟨length_bytes t, by simpa using hback t ht []⟩

theorem parse_bytes_board : parse (board.bytes ++ [5]) = .ok board ∧
    board.bytes.length = 140 ∧ parse board.bytes = .ok board :=
  ⟨parse_bytes.1 board (parse_bytes.2.1 _) [5],
    parse_bytes.2.2 relocatedBoard board (by decide +kernel)⟩

end ResourceTable

end Intercore
