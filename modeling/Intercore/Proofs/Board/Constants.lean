import Intercore.Proofs.Source.Reader
import Mathlib.Logic.Function.Basic

/-!
# What the constants of a board mean

The source text of a board's constants declares exactly the fields of the board, under the names
that it has for them. So no two boards have the same text.
-/

namespace Intercore.Board

open Source

def resetValue (r : ResetBit) : Value :=
  .record "crate::ResetBit" [("register", r.register.toNat), ("bit", r.bit.toNat)]

def regionValue (r : Region) : Value :=
  .record "crate::Region" [("base", r.base.toNat), ("size", r.size.toNat)]

def vringValue (v : Vring) : Value :=
  .record "crate::Vring"
    [("da", v.da.toNat), ("align", v.align.toNat), ("num", v.num.toNat),
     ("notify_id", v.notifyId.toNat)]

/-- The constants that a board is to have, each with the field that it is named for. -/
def meaning (b : Board) : List Item :=
  [⟨["hwsem", "BASE"], "usize", .number b.semaphores.base.toNat⟩,
   ⟨["hwsem", "CHANNELS"], "u8", .number b.semaphores.channels.toNat⟩,
   ⟨["hwsem", "LOCK_ATTEMPTS"], "u32", .number b.semaphores.lockAttempts.toNat⟩,
   ⟨["hwsem", "RESET"], "crate::ResetBit", resetValue b.semaphores.reset⟩,
   ⟨["whc", "APP_BASE"], "usize", .number b.mailboxes.appBase.toNat⟩,
   ⟨["whc", "RT_BASE"], "usize", .number b.mailboxes.rtBase.toNat⟩,
   ⟨["whc", "CHANNELS"], "u8", .number b.mailboxes.channels.toNat⟩,
   ⟨["whc", "RESET"], "crate::ResetBit", resetValue b.mailboxes.reset⟩,
   ⟨["sys", "BASE"], "usize", .number b.system.toNat⟩,
   ⟨["SHARED"], "crate::Region", regionValue b.shared⟩,
   ⟨["rpmsg", "FEATURES"], "u32", .number b.transport.features.toNat⟩,
   ⟨["rpmsg", "NOTIFY_ID"], "u32", .number b.transport.notifyId.toNat⟩,
   ⟨["rpmsg", "TX"], "crate::Vring", vringValue b.transport.tx⟩,
   ⟨["rpmsg", "RX"], "crate::Vring", vringValue b.transport.rx⟩,
   ⟨["trace", "BUFFER"], "crate::Region", regionValue b.trace.buffer⟩,
   ⟨["trace", "NAME"], "&str", .text b.trace.name⟩,
   ⟨["secondary", "LOAD"], "crate::Region", regionValue b.secondary.load⟩,
   ⟨["secondary", "BOOT_FLAG"], "usize", .number b.secondary.bootFlag.toNat⟩,
   ⟨["secondary", "BOOT_MAGIC"], "u32", .number b.secondary.bootMagic.toNat⟩,
   ⟨["secondary", "RELEASE_SPIN"], "u32", .number b.secondary.releaseSpin.toNat⟩,
   ⟨["secondary", "WAIT_ATTEMPTS"], "u32", .number b.secondary.waitAttempts.toNat⟩,
   ⟨["secondary", "RESET"], "crate::ResetBit", resetValue b.secondary.reset⟩]

/-- All names and types in the text are written as such, whatever the fields of the board hold. -/
lemma isWellFormed_declarations (b : Board) :
    ∀ d ∈ b.hardwareDeclarations ++ b.layoutDeclarations, d.isWellFormed = true := by
  rw [← List.all_eq_true]
  simp only [hardwareDeclarations, layoutDeclarations, List.cons_append, List.nil_append,
    List.all_cons, List.all_nil, Declaration.isWellFormed, Constant.isWellFormed,
    Literal.isWellFormed, address, byte, word, bits, reset, resetLiteral, regionLiteral,
    vringLiteral]
  rfl

lemma items_declarations (b : Board) :
    (b.hardwareDeclarations ++ b.layoutDeclarations).flatMap Declaration.items = b.meaning :=
  rfl

lemma items_constantsText (b : Board) : items b.constantsText = some b.meaning := by
  rw [constantsText, items_sections b.isWellFormed_declarations, items_declarations]

/-!
### Every field is there
-/

@[simp] lemma resetValue_inj {r r' : ResetBit} : resetValue r = resetValue r' ↔ r = r' := by
  cases r
  cases r'
  simp [resetValue, UInt8.toNat_inj]

@[simp] lemma regionValue_inj {r r' : Region} : regionValue r = regionValue r' ↔ r = r' := by
  cases r
  cases r'
  simp [regionValue, UInt32.toNat_inj]

@[simp] lemma vringValue_inj {v v' : Vring} : vringValue v = vringValue v' ↔ v = v' := by
  cases v
  cases v'
  simp [vringValue, UInt32.toNat_inj]

lemma meaning_injective : Function.Injective meaning := by
  rintro ⟨⟨_, _, _, _⟩, ⟨_, _, _, _⟩, _, _, ⟨_, _, _, _⟩, ⟨_, _⟩, ⟨_, _, _, _, _, _⟩⟩
    ⟨⟨_, _, _, _⟩, ⟨_, _, _, _⟩, _, _, ⟨_, _, _, _⟩, ⟨_, _⟩, ⟨_, _, _, _, _, _⟩⟩ h
  simp only [meaning, List.cons.injEq, Item.mk.injEq, Value.number.injEq, Value.text.injEq,
    true_and, and_true, resetValue_inj, regionValue_inj, vringValue_inj, UInt64.toNat_inj,
    UInt32.toNat_inj, UInt8.toNat_inj] at h
  simp [h]

/-- The text of a board's constants says for each of them what the board has in the field that it is
named for, and nothing else. All fields of the board are among these, so that only equal boards have
equal texts. -/
theorem constants_mean_board :
    (∀ b : Board, items b.constantsText = some b.meaning) ∧
      ∀ b b' : Board, b.constantsText = b'.constantsText ↔ b = b' := by
  refine ⟨items_constantsText, fun b b' => ⟨fun htext => ?_, congrArg constantsText⟩⟩
  have hmeaning : some b.meaning = some b'.meaning := by
    rw [← items_constantsText, ← items_constantsText, htext]
  exact meaning_injective (Option.some.inj hmeaning)

end Intercore.Board
