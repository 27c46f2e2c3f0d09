import Intercore.Board.Constants
import Intercore.Proofs.Source.Token

/-!
# The constants of source text

What source text declares: the constants in it, each with the modules around it, its type and its
value. A value is a number, a text, or a record of numbers.

Text that was laid out from a list of declarations declares these constants with these values,
whatever characters the texts among them hold.
-/

namespace Intercore

namespace Source

/-- The value of a constant. -/
inductive Value
  | number (n : Nat)
  | text (s : String)
  | record (type : String) (fields : List (String × Nat))
  deriving DecidableEq, Repr

/-- A constant: its name behind those of the modules around it, its type and its value. -/
structure Item where
  path : List String
  type : String
  value : Value
  deriving DecidableEq, Repr

/-- A type: a path of names, or a reference to a type. -/
def typeOf : List Token → Option String
  | [.name s] => some s
  | .name s :: .mark ':' :: .mark ':' :: rest => (typeOf rest).map (s ++ "::" ++ ·)
  | .mark '&' :: rest => (typeOf rest).map ("&" ++ ·)
  | _ => none

/-- The fields of a record up to the brace that closes it. -/
def fieldsOf : List Token → Option (List (String × Nat))
  | [.mark '\x7d'] => some []
  | [.name f, .mark ':', .number n, .mark '\x7d'] => some [(f, n)]
  | .name f :: .mark ':' :: .number n :: .mark ',' :: rest => (fieldsOf rest).map ((f, n) :: ·)
  | _ => none

def recordOf (ts : List Token) : Option Value := do
  let type ← typeOf (ts.takeWhile (· ≠ .mark '\x7b'))
  let fields ← fieldsOf ((ts.dropWhile (· ≠ .mark '\x7b')).drop 1)
  return .record type fields

def plainOf : List Token → Option Value
  | [.number n] => some (.number n)
  | [.text s] => some (.text s)
  | _ => none

def valueOf (ts : List Token) : Option Value := (recordOf ts).or (plainOf ts)

/-- Where the reader of declarations stands. Words that were read are held newest first. -/
inductive Place
  /-- Between two declarations. -/
  | between
  /-- Within the type of a constant. -/
  | type (name : String) (seen : List Token)
  /-- Within its value. -/
  | value (name type : String) (seen : List Token)

/-- The constants that are declared from some place on, within the modules around it, the innermost
first. -/
def itemsAt (around : List String) : Place → List Token → Option (List Item)
  | .between, [] => if around = [] then some [] else none
  | .between, .mark '\x7d' :: rest =>
    match around with
    | [] => none
    | _ :: outer => itemsAt outer .between rest
  | .between, .name pub :: .name keyword :: .name s :: .mark c :: rest =>
    if pub ≠ "pub" then none
    else if keyword = "mod" ∧ c = '\x7b' then itemsAt (s :: around) .between rest
    else if keyword = "const" ∧ c = ':' then itemsAt around (.type s []) rest
    else none
  | .type s seen, t :: rest =>
    if t = .mark '=' then do itemsAt around (.value s (← typeOf seen.reverse) []) rest
    else itemsAt around (.type s (t :: seen)) rest
  | .value s type seen, t :: rest =>
    if t = .mark ';' then do
      let v ← valueOf seen.reverse
      (itemsAt around .between rest).map (⟨(s :: around).reverse, type, v⟩ :: ·)
    else itemsAt around (.value s type (t :: seen)) rest
  | _, _ => none

/-- The constants that a text declares. -/
def items (text : String) : Option (List Item) := do itemsAt [] .between (← tokens text)

/-!
### Types
-/

/-- The words of a type. -/
def typeTokens (type : String) : List Token := (tokens type).getD []

/-- Whether a text is a type. -/
def isType (type : String) : Bool :=
  tokens type = some (typeTokens type) && typeOf (typeTokens type) = some type &&
    (typeTokens type).all (· ∉ [.mark '=', .mark ';', .mark '\x7b'])

end Source

namespace Board

open Source

namespace Numeral

def value : Numeral → Nat
  | hex n | decimal n => n

lemma lexes (n : Numeral) : Lexes n.render [.number n.value] := by
  cases n with
  | hex n => exact lexes_hex n
  | decimal n => exact lexes_decimal n

end Numeral

/-!
### Declarations as words
-/

/-- The words of a field of a record. -/
def fieldTokens (field : String × Numeral) : List Token :=
  [.name field.1, .mark ':', .number field.2.value]

def Literal.tokens : Literal → List Token
  | numeral n => [.number n.value]
  | text s => [.text s]
  | record type fields =>
    typeTokens type ++ .mark '\x7b' :: ([.mark ','].intercalate (fields.map fieldTokens) ++
      [.mark '\x7d'])

def Constant.tokens (c : Constant) : List Token :=
  .name "pub" :: .name "const" :: .name c.name :: .mark ':' ::
    (typeTokens c.type ++ .mark '=' :: (c.value.tokens ++ [.mark ';']))

def Declaration.tokens : Declaration → List Token
  | module name cs =>
    .name "pub" :: .name "mod" :: .name name :: .mark '\x7b' ::
      (cs.flatMap Constant.tokens ++ [.mark '\x7d'])
  | constant c => c.tokens

/-- All names and types that are written are names and types. -/
def Literal.isWellFormed : Literal → Bool
  | numeral _ | text _ => true
  | record type fields => isType type && fields.all fun field => isName field.1

def Constant.isWellFormed (c : Constant) : Bool :=
  isName c.name && isType c.type && c.value.isWellFormed

def Declaration.isWellFormed : Declaration → Bool
  | module name cs => isName name && cs.all Constant.isWellFormed
  | constant c => c.isWellFormed

lemma isType_iff {type : String} : isType type = true ↔ Lexes type (typeTokens type) ∧
    typeOf (typeTokens type) = some type ∧
      ∀ t ∈ typeTokens type, t ≠ .mark '=' ∧ t ≠ .mark ';' ∧ t ≠ .mark '\x7b' := by
  simp [isType, Lexes, and_assoc]

/-!
### Declarations as text
-/

lemma separates_colon : Separates ": " [.mark ':'] := ⟨rfl, _, _, rfl, rfl⟩

lemma separates_comma : Separates ", " [.mark ','] := ⟨rfl, _, _, rfl, rfl⟩

lemma separates_equals : Separates " = " [.mark '='] := ⟨rfl, _, _, rfl, rfl⟩

lemma separates_semicolon : Separates ";\n" [.mark ';'] := ⟨rfl, _, _, rfl, rfl⟩

lemma separates_open : Separates " \x7b " [.mark '\x7b'] := ⟨rfl, _, _, rfl, rfl⟩

lemma separates_open_line : Separates " \x7b\n" [.mark '\x7b'] := ⟨rfl, _, _, rfl, rfl⟩

lemma separates_close : Separates " \x7d" [.mark '\x7d'] := ⟨rfl, _, _, rfl, rfl⟩

lemma lexes_field {field : String × Numeral} (h : isName field.1 = true) :
    Lexes (field.1 ++ ": " ++ field.2.render) (fieldTokens field) :=
  ((lexes_name h).append separates_colon).append_lexes field.2.lexes

lemma lexes_fields {fields : List (String × Numeral)}
    (h : ∀ field ∈ fields, isName field.1 = true) :
    Lexes (", ".intercalate (fields.map fun (name, n) => name ++ ": " ++ n.render))
      ([.mark ','].intercalate (fields.map fieldTokens)) := by
  match fields with
  | [] => rfl
  | [field] => simpa using lexes_field (h field List.mem_cons_self)
  | field :: next :: rest =>
    simp only [List.map_cons, String.intercalate_cons_cons, List.intercalate_cons_cons]
    have hfield := lexes_field (h field List.mem_cons_self)
    have hrest := lexes_fields fun f hf => h f (List.mem_cons_of_mem field hf)
    exact (hfield.append separates_comma).append_lexes hrest

lemma Literal.lexes {l : Literal} (h : l.isWellFormed = true) : Lexes l.render l.tokens := by
  cases l with
  | numeral n => exact n.lexes
  | text s => exact (closes_quote s).lexes
  | record type fields =>
    simp only [isWellFormed, Bool.and_eq_true, List.all_eq_true] at h
    have htype := (isType_iff.mp h.1).1
    have hrecord := ((htype.append separates_open).append_lexes
      (lexes_fields h.2)).append separates_close
    exact (hrecord.of_eq (by simp [tokens])).lexes

lemma Constant.closes {c : Constant} (h : c.isWellFormed = true) : Closes c.render c.tokens := by
  simp only [isWellFormed, Bool.and_eq_true] at h
  have hpub : Closes "pub const " [.name "pub", .name "const"] := rfl
  have htype := (isType_iff.mp h.1.2).1
  have hfront := (hpub.append_lexes (lexes_name h.1.1)).append separates_colon
  have hconstant := (((hfront.append_lexes htype).append separates_equals).append_lexes
    (Literal.lexes h.2)).append separates_semicolon
  exact hconstant.of_eq (by simp [tokens])

lemma closes_constants {cs : List Constant} (h : ∀ c ∈ cs, c.isWellFormed = true) :
    Closes (String.join (cs.map fun c => "    " ++ c.render)) (cs.flatMap Constant.tokens) := by
  induction cs with
  | nil => rfl
  | cons c cs ih =>
    have hindent : Closes "    " [] := rfl
    have hc := hindent.append (Constant.closes (h c List.mem_cons_self))
    rw [List.map_cons, String.join_cons, List.flatMap_cons]
    exact hc.append (ih fun d hd => h d (List.mem_cons_of_mem c hd))

lemma Declaration.closes {d : Declaration} (h : d.isWellFormed = true) :
    Closes d.render d.tokens := by
  cases d with
  | constant c => exact Constant.closes h
  | module name cs =>
    simp only [isWellFormed, Bool.and_eq_true, List.all_eq_true] at h
    have hpub : Closes "pub mod " [.name "pub", .name "mod"] := rfl
    have hend : Closes "\x7d\n" [.mark '\x7d'] := rfl
    have hfront := (hpub.append_lexes (lexes_name h.1)).append separates_open_line
    exact ((hfront.append (closes_constants h.2)).append hend).of_eq (by simp [tokens])

lemma closes_declarations {ds : List Declaration} (h : ∀ d ∈ ds, d.isWellFormed = true) :
    Closes ("\n".intercalate (ds.map Declaration.render)) (ds.flatMap Declaration.tokens) := by
  match ds with
  | [] => rfl
  | [d] => simpa using Declaration.closes (h d List.mem_cons_self)
  | d :: next :: rest =>
    have hline : Closes "\n" [] := rfl
    have hd := Declaration.closes (h d List.mem_cons_self)
    have hrest := closes_declarations fun e he => h e (List.mem_cons_of_mem d he)
    rw [List.map_cons, List.map_cons, String.intercalate_cons_cons, ← List.map_cons]
    exact ((hd.append hline).append hrest).of_eq (by simp)

lemma closes_section {ds : List Declaration} (h : ∀ d ∈ ds, d.isWellFormed = true) :
    Closes (renderSection ds) (ds.flatMap Declaration.tokens) := by
  have hline : Closes "\n" [] := rfl
  exact ((hline.append (closes_declarations h)).append hline).of_eq (by simp)

/-!
### Declarations as items
-/

/-- What a value says. -/
def Literal.meaning : Literal → Value
  | numeral n => .number n.value
  | text s => .text s
  | record type fields => .record type (fields.map fun field => (field.1, field.2.value))

def Constant.item (around : List String) (c : Constant) : Item :=
  ⟨(c.name :: around).reverse, c.type, c.value.meaning⟩

def Declaration.items : Declaration → List Item
  | module name cs => cs.map (Constant.item [name])
  | constant c => [c.item []]

lemma fieldsOf_fieldTokens (fields : List (String × Numeral)) :
    fieldsOf ([.mark ','].intercalate (fields.map fieldTokens) ++ [.mark '\x7d']) =
      some (fields.map fun field => (field.1, field.2.value)) := by
  match fields with
  | [] => rfl
  | [field] => rfl
  | field :: next :: rest =>
    have hfield : [.mark ','].intercalate ((field :: next :: rest).map fieldTokens) ++
        [.mark '\x7d'] = .name field.1 :: .mark ':' :: .number field.2.value :: .mark ',' ::
          ([.mark ','].intercalate ((next :: rest).map fieldTokens) ++ [.mark '\x7d']) := by
      rw [List.map_cons, List.map_cons, List.intercalate_cons_cons]
      rfl
    rw [hfield, fieldsOf, fieldsOf_fieldTokens (next :: rest)]
    rfl

lemma valueOf_tokens {l : Literal} (h : l.isWellFormed = true) :
    valueOf l.tokens = some l.meaning := by
  cases l with
  | numeral n => rfl
  | text s => rfl
  | record type fields =>
    simp only [Literal.isWellFormed, Bool.and_eq_true] at h
    obtain ⟨-, htype, hmarks⟩ := isType_iff.mp h.1
    have hfree : ∀ t ∈ typeTokens type, decide (t ≠ .mark '\x7b') = true := by
      intro t ht
      simp [(hmarks t ht).2.2]
    have hrecord : recordOf (Literal.record type fields).tokens =
        some (Literal.record type fields).meaning := by
      rw [recordOf, Literal.tokens, List.takeWhile_append_of_pos hfree,
        List.dropWhile_append_of_pos hfree]
      simp [htype, fieldsOf_fieldTokens, Literal.meaning]
    rw [valueOf, hrecord]
    rfl

lemma ne_semicolon_of_mem_field {field : String × Numeral} {t : Token}
    (ht : t ∈ fieldTokens field) : t ≠ .mark ';' := by
  simp only [fieldTokens, List.mem_cons, List.not_mem_nil, or_false] at ht
  obtain rfl | rfl | rfl := ht
  all_goals simp

lemma ne_semicolon_of_mem_fields {fields : List (String × Numeral)} {t : Token}
    (ht : t ∈ [.mark ','].intercalate (fields.map fieldTokens)) : t ≠ .mark ';' := by
  match fields with
  | [] => cases ht
  | [field] =>
    have hfield : t ∈ fieldTokens field := by simpa using ht
    exact ne_semicolon_of_mem_field hfield
  | field :: next :: rest =>
    rw [List.map_cons, List.map_cons, List.intercalate_cons_cons, ← List.map_cons,
      List.mem_append, List.mem_append, List.mem_singleton] at ht
    obtain (ht | rfl) | ht := ht
    · exact ne_semicolon_of_mem_field ht
    · simp
    · exact ne_semicolon_of_mem_fields ht

lemma Literal.ne_semicolon {l : Literal} (h : l.isWellFormed = true) {t : Token}
    (ht : t ∈ l.tokens) : t ≠ .mark ';' := by
  cases l with
  | numeral _ | text _ =>
    obtain rfl := List.mem_singleton.mp ht
    simp
  | record type fields =>
    simp only [isWellFormed, Bool.and_eq_true] at h
    simp only [tokens, List.mem_append, List.mem_cons, List.not_mem_nil, or_false] at ht
    obtain ht | rfl | ht | rfl := ht
    · exact ((isType_iff.mp h.1).2.2 t ht).2.1
    · simp
    · exact ne_semicolon_of_mem_fields ht
    · simp

/-- From some place between declarations on, words declare these constants, whatever follows. -/
def Declares (around : List String) (ts : List Token) (is : List Item) : Prop :=
  ∀ rest, itemsAt around .between (ts ++ rest) =
    (itemsAt around .between rest).map (is ++ ·)

section Declares

variable {around : List String} {ts us : List Token} {is js : List Item}

lemma declares_nil : Declares around [] [] := by
  intro rest
  simp

lemma Declares.append (ht : Declares around ts is) (hu : Declares around us js) :
    Declares around (ts ++ us) (is ++ js) := by
  intro rest
  rw [List.append_assoc, ht, hu, Option.map_map]
  congr 1
  funext ks
  exact (List.append_assoc ..).symm

lemma itemsAt_type (s : String) {type : String} (hts : ∀ t ∈ ts, t ≠ .mark '=')
    (seen rest : List Token) (htype : typeOf (seen.reverse ++ ts) = some type) :
    itemsAt around (.type s seen) (ts ++ .mark '=' :: rest) =
      itemsAt around (.value s type []) rest := by
  induction ts generalizing seen with
  | nil =>
    rw [List.append_nil] at htype
    simp [itemsAt, htype]
  | cons t ts ih =>
    have ht := hts t List.mem_cons_self
    rw [List.cons_append, itemsAt, if_neg ht]
    exact ih (fun t ht => hts t (List.mem_cons_of_mem _ ht)) _ (by simpa using htype)

lemma itemsAt_value (s type : String) {v : Value} (hts : ∀ t ∈ ts, t ≠ .mark ';')
    (seen rest : List Token) (hv : valueOf (seen.reverse ++ ts) = some v) :
    itemsAt around (.value s type seen) (ts ++ .mark ';' :: rest) =
      (itemsAt around .between rest).map (⟨(s :: around).reverse, type, v⟩ :: ·) := by
  induction ts generalizing seen with
  | nil =>
    rw [List.append_nil] at hv
    simp [itemsAt, hv]
  | cons t ts ih =>
    have ht := hts t List.mem_cons_self
    rw [List.cons_append, itemsAt, if_neg ht]
    exact ih (fun t ht => hts t (List.mem_cons_of_mem _ ht)) _ (by simpa using hv)

lemma declares_constant {c : Constant} (h : c.isWellFormed = true) :
    Declares around c.tokens [c.item around] := by
  intro rest
  simp only [Constant.isWellFormed, Bool.and_eq_true] at h
  obtain ⟨-, htype, hmarks⟩ := isType_iff.mp h.1.2
  have hbegin : itemsAt around .between (c.tokens ++ rest) = itemsAt around (.type c.name [])
      (typeTokens c.type ++ .mark '=' :: (c.value.tokens ++ .mark ';' :: rest)) := by
    simp [Constant.tokens, itemsAt]
  rw [hbegin, itemsAt_type c.name (fun t ht => (hmarks t ht).1) [] _ htype,
    itemsAt_value c.name c.type (fun t ht => Literal.ne_semicolon h.2 ht) [] _
      (valueOf_tokens h.2)]
  rfl

lemma declares_constants {cs : List Constant} (h : ∀ c ∈ cs, c.isWellFormed = true) :
    Declares around (cs.flatMap Constant.tokens) (cs.map (Constant.item around)) := by
  induction cs with
  | nil => exact declares_nil
  | cons c cs ih =>
    exact (declares_constant (h c List.mem_cons_self)).append
      (ih fun d hd => h d (List.mem_cons_of_mem c hd))

lemma declares_declaration {d : Declaration} (h : d.isWellFormed = true) :
    Declares [] d.tokens d.items := by
  cases d with
  | constant c => exact declares_constant h
  | module name cs =>
    intro rest
    simp only [Declaration.isWellFormed, Bool.and_eq_true, List.all_eq_true] at h
    have hbegin : itemsAt [] .between ((Declaration.module name cs).tokens ++ rest) =
        itemsAt [name] .between (cs.flatMap Constant.tokens ++ .mark '\x7d' :: rest) := by
      simp [Declaration.tokens, itemsAt]
    have hend : itemsAt [name] .between (.mark '\x7d' :: rest) = itemsAt [] .between rest := by
      rw [itemsAt]
    rw [hbegin, declares_constants h.2, hend]
    rfl

lemma declares_declarations {ds : List Declaration} (h : ∀ d ∈ ds, d.isWellFormed = true) :
    Declares [] (ds.flatMap Declaration.tokens) (ds.flatMap Declaration.items) := by
  induction ds with
  | nil => exact declares_nil
  | cons d ds ih =>
    rw [List.flatMap_cons, List.flatMap_cons]
    exact (declares_declaration (h d List.mem_cons_self)).append
      (ih fun e he => h e (List.mem_cons_of_mem d he))

end Declares

/-- Text that was laid out from declarations in two sections declares what they say. -/
lemma items_sections {ds ds' : List Declaration} (h : ∀ d ∈ ds ++ ds', d.isWellFormed = true) :
    items (renderSection ds ++ renderSection ds') =
      some ((ds ++ ds').flatMap Declaration.items) := by
  have hds := closes_section fun d hd => h d (List.mem_append_left _ hd)
  have hds' := closes_section fun d hd => h d (List.mem_append_right _ hd)
  have htokens : tokens (renderSection ds ++ renderSection ds') = some _ := (hds.append hds').lexes
  have hdeclares := declares_declarations h []
  rw [List.append_nil, List.flatMap_append] at hdeclares
  rw [items, htokens, Option.bind_eq_bind, Option.bind_some, hdeclares, itemsAt]
  simp

end Board

end Intercore
