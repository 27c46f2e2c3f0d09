/-!
# Values and tables

Values of a TOML document, and the rules on who may add to a table.

A table is filled by the section under its header, by dotted keys and by the headers of tables
inside it, but never twice in conflicting ways: the origin of each table says how it came about
and so what may still be added. Every function here is `none` where a document breaks a rule.
-/

namespace Intercore.Toml

/-- How a table came about. -/
inductive Origin
  /-- By its own header, or as the whole document. -/
  | header
  /-- Through the header of a table inside it. -/
  | implicit
  /-- Through a dotted key. -/
  | dotted
  /-- Between braces, which nothing can add to. -/
  | inline
  deriving DecidableEq, Repr

/-- A value. What is neither text nor a number read exactly is kept as it was written. -/
inductive Value
  | string (text : String)
  | integer (n : Int)
  /-- The outline of an integer around digits that denote no number, as in `0x` or `1_x`. It does
  no harm where nobody reads it. -/
  | malformed (text : String)
  | float (text : String)
  | boolean (b : Bool)
  | moment (text : String)
  /-- An array; one that `grows` is made of the tables under repeated headers. -/
  | array (grows : Bool) (items : List Value)
  | table (origin : Origin) (entries : List (String × Value))
  deriving Repr

/-- The keys of a table with their values, in the order of the document. -/
abbrev Entries := List (String × Value)

/-- A key as written: the tables it leads through, and the last part. -/
structure Key where
  path : List String
  last : String
  deriving DecidableEq, Repr

namespace Entries

/-- Changes the value of a key, or makes one for a key that is not there yet. -/
def alter? (es : Entries) (key : String) (f : Option Value → Option Value) : Option Entries :=
  match es with
  | [] => do return [(key, ← f none)]
  | (k, v) :: rest =>
    if k = key then do return (k, ← f (some v)) :: rest
    else do return (k, v) :: (← alter? rest key f)

/-- Changes the table at the end of `path`. Tables missing on the way are made with the given
origin: `dotted` for the path of a dotted key, `implicit` for that of a header. A dotted key
does not lead through a table that has a header, and nothing leads through braces. -/
def walk? (origin : Origin) (f : Origin → Entries → Option Entries) :
    List String → Origin → Entries → Option Entries
  | [], here, es => f here es
  | key :: path, _, es => es.alter? key fun
    | none => do return .table origin (← walk? origin f path origin [])
    | some (.table o sub) =>
      if o = .inline || origin = .dotted && o = .header then none
      else do return .table o (← walk? origin f path o sub)
    | some (.array true items) =>
      match items.getLast? with
      | some (.table o sub) => do
        return .array true (items.dropLast ++ [.table o (← walk? origin f path o sub)])
      | _ => none
    | some _ => none

/-- Gives a new key its value. A dotted key ends in a table made by dotted keys, a plain one in
the table at hand. -/
def put? (es : Entries) (key : Key) (v : Value) : Option Entries :=
  walk? .dotted add key.path .header es
where
  add (here : Origin) (es : Entries) : Option Entries :=
    if (here = .dotted) = (key.path ≠ []) then
      es.alter? key.last fun
        | none => some v
        | some _ => none
    else none

/-- Gives keys their values one after the other. -/
def putAll? (es : Entries) (assigned : List (Key × Value)) : Option Entries :=
  assigned.foldlM (fun es (k, v) => es.put? k v) es

end Entries

/-- A header with the assignments under it. A `repeated` header adds a table to an array. -/
structure Section where
  repeated : Bool
  key : Key
  assigned : List (Key × Value)
  deriving Repr

/-- Adds a section to a document. A table has at most one header of its own. -/
def Section.addTo? (s : Section) (doc : Entries) : Option Entries :=
  doc.walk? .implicit (fun _ es => es.alter? s.key.last fill) s.key.path .header
where
  fill (old : Option Value) : Option Value :=
    if s.repeated then
      match old with
      | none => do return .array true [.table .header (← Entries.putAll? [] s.assigned)]
      | some (.array true items) => do
        return .array true (items ++ [.table .header (← Entries.putAll? [] s.assigned)])
      | some _ => none
    else
      match old with
      | none => do return .table .header (← Entries.putAll? [] s.assigned)
      | some (.table .implicit es) => do return .table .header (← Entries.putAll? es s.assigned)
      | some _ => none

/-- A document: the assignments above all headers, then the sections. -/
structure Document where
  assigned : List (Key × Value)
  sections : List Section
  deriving Repr

/-- The table that a document describes. -/
def Document.entries? (d : Document) : Option Entries := do
  d.sections.foldlM (fun es s => s.addTo? es) (← Entries.putAll? [] d.assigned)

end Intercore.Toml
