import Intercore.Board.Config
import Intercore.Text.Quoted

/-!
# The constants of a board

The board's constants as source text for the programs that are built for it.

The text is laid out from a list of modules of named constants, so that what is declared and
how it is written are kept apart.
-/

namespace Intercore.Board

/-- A number and the base it is written in. -/
inductive Numeral
  | hex (n : Nat)
  | decimal (n : Nat)
  deriving DecidableEq, Repr

/-- The value of a constant. -/
inductive Literal
  | numeral (n : Numeral)
  | text (s : String)
  /-- A record of numbers. -/
  | record (type : String) (fields : List (String × Numeral))
  deriving DecidableEq, Repr

/-- A named value with its type. -/
structure Constant where
  name : String
  type : String
  value : Literal
  deriving DecidableEq, Repr

/-- What can be declared: a module of constants, or a constant outside all modules. -/
inductive Declaration
  | module (name : String) (constants : List Constant)
  | constant (c : Constant)
  deriving DecidableEq, Repr

/-- A number in its base. -/
def Numeral.render : Numeral → String
  | hex n => Text.hex n
  | decimal n => toString n

/-- A value as it stands after the equals sign. -/
def Literal.render : Literal → String
  | numeral n => n.render
  | text s => Text.quote s
  | record type fields =>
    type ++ " \x7b " ++ ", ".intercalate (fields.map fun (name, n) => name ++ ": " ++ n.render)
      ++ " \x7d"

def Constant.render (c : Constant) : String :=
  "pub const " ++ c.name ++ ": " ++ c.type ++ " = " ++ c.value.render ++ ";\n"

/-- A declaration, with the constants of a module indented. -/
def Declaration.render : Declaration → String
  | module name cs =>
    "pub mod " ++ name ++ " \x7b\n" ++ String.join (cs.map fun c => "    " ++ c.render) ++ "\x7d\n"
  | constant c => c.render

/-- A section of the text: declarations with a blank line before, between and after them. -/
def renderSection (ds : List Declaration) : String :=
  "\n" ++ "\n".intercalate (ds.map Declaration.render) ++ "\n"

def resetLiteral (r : ResetBit) : Literal :=
  .record "crate::ResetBit"
    [("register", .decimal r.register.toNat), ("bit", .decimal r.bit.toNat)]

def regionLiteral (r : Region) : Literal :=
  .record "crate::Region" [("base", .hex r.base.toNat), ("size", .hex r.size.toNat)]

def vringLiteral (v : Vring) : Literal :=
  .record "crate::Vring"
    [("da", .hex v.da.toNat), ("align", .hex v.align.toNat), ("num", .decimal v.num.toNat),
     ("notify_id", .decimal v.notifyId.toNat)]

def address (name : String) (n : Nat) : Constant := ⟨name, "usize", .numeral (.hex n)⟩

def byte (name : String) (n : UInt8) : Constant := ⟨name, "u8", .numeral (.decimal n.toNat)⟩

/-- A constant word, written in base ten. -/
def word (name : String) (n : UInt32) : Constant := ⟨name, "u32", .numeral (.decimal n.toNat)⟩

/-- A constant word of bits, written in base sixteen. -/
def bits (name : String) (n : UInt32) : Constant := ⟨name, "u32", .numeral (.hex n.toNat)⟩

def reset (r : ResetBit) : Constant := ⟨"RESET", "crate::ResetBit", resetLiteral r⟩

/-- The constants of the hardware blocks and the shared window. -/
def hardwareDeclarations (b : Board) : List Declaration :=
  [.module "hwsem"
    [address "BASE" b.semaphores.base.toNat, byte "CHANNELS" b.semaphores.channels,
     word "LOCK_ATTEMPTS" b.semaphores.lockAttempts, reset b.semaphores.reset],
   .module "whc"
    [address "APP_BASE" b.mailboxes.appBase.toNat, address "RT_BASE" b.mailboxes.rtBase.toNat,
     byte "CHANNELS" b.mailboxes.channels, reset b.mailboxes.reset],
   .module "sys" [address "BASE" b.system.toNat],
   .constant ⟨"SHARED", "crate::Region", regionLiteral b.shared⟩]

/-- The constants of what lies in shared memory and of the secondary core. -/
def layoutDeclarations (b : Board) : List Declaration :=
  [.module "rpmsg"
    [bits "FEATURES" b.transport.features, word "NOTIFY_ID" b.transport.notifyId,
     ⟨"TX", "crate::Vring", vringLiteral b.transport.tx⟩,
     ⟨"RX", "crate::Vring", vringLiteral b.transport.rx⟩],
   .module "trace"
    [⟨"BUFFER", "crate::Region", regionLiteral b.trace.buffer⟩,
     ⟨"NAME", "&str", .text b.trace.name⟩],
   .module "secondary"
    [⟨"LOAD", "crate::Region", regionLiteral b.secondary.load⟩,
     address "BOOT_FLAG" b.secondary.bootFlag.toNat, bits "BOOT_MAGIC" b.secondary.bootMagic,
     word "RELEASE_SPIN" b.secondary.releaseSpin, word "WAIT_ATTEMPTS" b.secondary.waitAttempts,
     reset b.secondary.reset]]

/-- The source text of a board's constants. -/
def constantsText (b : Board) : String :=
  renderSection b.hardwareDeclarations ++ renderSection b.layoutDeclarations

end Intercore.Board
