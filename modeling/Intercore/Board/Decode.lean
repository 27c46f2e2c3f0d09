import Intercore.Board.Config
import Intercore.Toml.Reader

/-!
# Reading a board description

A group of settings is a table with exactly the keys of the group. It may also be written as an
array that lists the settings in order; what comes after the last of them is not looked at.
-/

namespace Intercore

/-- The settings with the given names, in that order: from a table with just these keys, or from
the front of an array. -/
def Toml.Value.settings? (names : List String) : Toml.Value → Option (List Toml.Value)
  | .table _ entries =>
    if entries.all fun e => names.contains e.1 then names.mapM fun name => entries.lookup name
    else none
  | .array _ items => if names.length ≤ items.length then some (items.take names.length) else none
  | _ => none

namespace Board

open Toml (Value)

def number? (bound : Nat) : Value → Option Nat
  | .integer n => if 0 ≤ n && n < bound then some n.toNat else none
  | _ => none

/-- A number of eight bits. -/
def byte? (v : Value) : Option UInt8 := (number? UInt8.size v).map .ofNat

def word? (v : Value) : Option UInt32 := (number? UInt32.size v).map .ofNat

def address? (v : Value) : Option UInt64 := (number? UInt64.size v).map .ofNat

def text? : Value → Option String
  | .string s => some s
  | _ => none

def resetBit? (v : Value) : Option ResetBit := do
  let [register, bit] ← v.settings? ["register", "bit"] | none
  return ⟨← byte? register, ← byte? bit⟩

def semaphores? (v : Value) : Option Semaphores := do
  let [base, channels, lockAttempts, reset] ←
    v.settings? ["base", "channels", "lock-attempts", "reset"] | none
  return ⟨← address? base, ← byte? channels, ← word? lockAttempts, ← resetBit? reset⟩

def mailboxes? (v : Value) : Option Mailboxes := do
  let [appBase, rtBase, channels, reset] ←
    v.settings? ["app-base", "rt-base", "channels", "reset"] | none
  return ⟨← address? appBase, ← address? rtBase, ← byte? channels, ← resetBit? reset⟩

/-- The address of the system controller. -/
def system? (v : Value) : Option UInt64 := do
  let [base] ← v.settings? ["base"] | none
  address? base

def shared? (v : Value) : Option Region := do
  let [base, size] ← v.settings? ["base", "size"] | none
  return ⟨← word? base, ← word? size⟩

/-- One ring of the transport. -/
def vring? (v : Value) : Option Vring := do
  let [da, align, num, notifyId] ← v.settings? ["da", "align", "num", "notify-id"] | none
  return ⟨← word? da, ← word? align, ← word? num, ← word? notifyId⟩

def transport? (v : Value) : Option Transport := do
  let [features, notifyId, tx, rx] ← v.settings? ["features", "notify-id", "tx", "rx"] | none
  return ⟨← word? features, ← word? notifyId, ← vring? tx, ← vring? rx⟩

def trace? (v : Value) : Option TraceBuffer := do
  let [da, len, name] ← v.settings? ["da", "len", "name"] | none
  return ⟨⟨← word? da, ← word? len⟩, ← text? name⟩

def secondary? (v : Value) : Option Secondary := do
  let [loadBase, loadSize, bootFlag, bootMagic, releaseSpin, waitAttempts, reset] ←
    v.settings? ["load-base", "load-size", "boot-flag", "boot-magic", "release-spin",
      "wait-attempts", "reset"] | none
  return {
    load := ⟨← word? loadBase, ← word? loadSize⟩
    bootFlag := ← word? bootFlag
    bootMagic := ← word? bootMagic
    releaseSpin := ← word? releaseSpin
    waitAttempts := ← word? waitAttempts
    reset := ← resetBit? reset }

def ofValue? (v : Value) : Option Board := do
  let [semaphores, mailboxes, system, shared, transport, trace, secondary] ←
    v.settings? ["hwsem", "whc", "sys", "shared", "rpmsg", "trace", "secondary"] | none
  return {
    semaphores := ← semaphores? semaphores
    mailboxes := ← mailboxes? mailboxes
    system := ← system? system
    shared := ← shared? shared
    transport := ← transport? transport
    trace := ← trace? trace
    secondary := ← secondary? secondary }

def parse? (text : String) : Option Board := do
  ofValue? (.table .header (← Toml.parse? text))

end Board

end Intercore
