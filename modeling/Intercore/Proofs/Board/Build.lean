import Intercore.Board.Build
import Intercore.Board.Evaluation
import Intercore.Proofs.Board.Constants

/-!
# What the build writes

The build step writes a file if and only if the description that it finds reads as a board which passes
its check, and the file then means this board. The text of the evaluation board, which is taken unless
another one is chosen, reads as the evaluation board.
-/

namespace Intercore.Board

open Source

/-!
### Steps of the build
-/

section Steps

variable {α β : Type} {f : α → BuildM β} {out : String} {b : β}

lemma fst_run_bind (x : BuildM α) (f : α → BuildM β) (out : String) :
    ((x >>= f).run out).1 =
      match (x.run out).1 with
      | .ok a => ((f a).run (x.run out).2).1
      | .error e => .error e := by
  have hrun : (x >>= f).run out = ExceptT.bindCont f (x.run out).1 (x.run out).2 := rfl
  rw [hrun]
  cases (x.run out).1 <;> rfl

lemma fst_run_say_bind (line : String) (f : Unit → BuildM β) (out : String) :
    ((say line >>= f).run out).1 = ((f ()).run (out ++ line ++ "\n")).1 := rfl

lemma fst_run_orStop (e : BuildError) (o : Option α) (out : String) :
    ((orStop e o).run out).1 = o.elim (.error e) .ok := by
  cases o <;> rfl

lemma bind_eq_ok {x : BuildM α} : ((x >>= f).run out).1 = .ok b ↔
    ∃ a, (x.run out).1 = .ok a ∧ ((f a).run (x.run out).2).1 = .ok b := by
  rw [fst_run_bind]
  cases (x.run out).1 <;> simp

/-- A value that is not there stops the build. -/
lemma orStop_bind_eq_ok {e : BuildError} {o : Option α} :
    ((orStop e o >>= f).run out).1 = .ok b ↔ ∃ a, o = some a ∧ ((f a).run out).1 = .ok b := by
  cases o with
  | none =>
    have hrun : ((orStop e none >>= f).run out).1 = .error e := rfl
    rw [hrun]
    simp
  | some a =>
    have hrun : ((orStop e (some a) >>= f).run out).1 = ((f a).run out).1 := rfl
    rw [hrun]
    simp

end Steps

/-- The board that is described in a file. -/
def Surroundings.described? (s : Surroundings) (path : String) : Option Board :=
  (s.file path >>= String.fromUTF8?) >>= parse?

variable {s : Surroundings} {out default path : String} {b : Board}

lemma fromUTF8?_toUTF8 (text : String) : String.fromUTF8? text.toUTF8 = some text := by
  rw [String.toUTF8_eq_toByteArray, String.fromUTF8?, dif_pos text.isValidUTF8]
  rfl

lemma described?_eq {text : String} (h : s.file path = some text.toUTF8) :
    s.described? path = parse? text := by
  rw [Surroundings.described?, h, Option.bind_eq_bind, Option.bind_eq_bind, Option.bind_some,
    fromUTF8?_toUTF8, Option.bind_some]

lemma fst_run_findDescription (s : Surroundings) (default out : String) :
    ((findDescription s default).run out).1 = .ok (s.boardPath.getD default) := by
  rw [findDescription]
  cases s.boardPath <;> rfl

lemma readDescription_eq_ok :
    ((readDescription s default).run out).1 = .ok b ↔
      s.described? (s.boardPath.getD default) = some b := by
  rw [readDescription, fst_run_bind, fst_run_findDescription, Surroundings.described?]
  simp only [fst_run_say_bind, orStop_bind_eq_ok, fst_run_orStop]
  cases s.file (s.boardPath.getD default) >>= String.fromUTF8? with
  | none => simp
  | some text => cases hparse : parse? text <;> simp [hparse]

/-- The build writes a file if and only if it finds the description of a board that passes its check. In
the file are the constants of that board. -/
theorem build_eq_ok_iff {file : Generated} :
    ((build s).run out).1 = .ok file ↔
      ∃ manifestDir outDir b, s.manifestDir = some manifestDir ∧ s.outDir = some outDir ∧
        s.described? (s.boardPath.getD (defaultPath manifestDir)) = some b ∧ b.check = .ok () ∧
        file = ⟨below outDir "amp_config.rs", b.constantsText⟩ := by
  rw [build, orStop_bind_eq_ok]
  constructor
  · rintro ⟨manifestDir, hmanifest, h⟩
    obtain ⟨b, hread, hrest⟩ := bind_eq_ok.mp h
    cases hcheck : b.check with
    | error c =>
      rw [hcheck] at hrest
      cases hrest
    | ok u =>
      rw [hcheck] at hrest
      obtain ⟨outDir, hout, hfile⟩ := orStop_bind_eq_ok.mp hrest
      cases hfile
      exact ⟨manifestDir, outDir, b, hmanifest, hout, readDescription_eq_ok.mp hread, hcheck, rfl⟩
  · rintro ⟨manifestDir, outDir, b, hmanifest, hout, hread, hcheck, rfl⟩
    refine ⟨manifestDir, hmanifest, bind_eq_ok.mpr ⟨b, readDescription_eq_ok.mpr hread, ?_⟩⟩
    rw [hcheck]
    exact orStop_bind_eq_ok.mpr ⟨outDir, hout, rfl⟩

/-- So what the file says is what the description says. -/
theorem items_of_build {file : Generated} (h : ((build s).run out).1 = .ok file) :
    ∃ path b, s.described? path = some b ∧ items file.text = some b.meaning := by
  obtain ⟨_, _, b, -, -, hread, -, rfl⟩ := build_eq_ok_iff.mp h
  exact ⟨_, b, hread, items_constantsText b⟩

/-!
### The evaluation board
-/

/-- The characters of some texts. To spell them out first makes it cheap to evaluate what is read. -/
inductive Spelled : List String → List (List Char) → Prop
  | nil : Spelled [] []
  | cons {lines : List String} {spelled : List (List Char)} (cs : List Char)
      (rest : Spelled lines spelled) : Spelled (String.ofList cs :: lines) (cs :: spelled)

lemma Spelled.toList_join {lines : List String} {spelled : List (List Char)}
    (h : Spelled lines spelled) :
    (String.join (lines.map (· ++ "\n"))).toList = spelled.flatMap (· ++ ['\n']) := by
  induction h with
  | nil => rfl
  | cons cs rest ih =>
    rw [List.map_cons, String.join_cons, String.toList_append, String.toList_append, ih,
      String.toList_ofList]
    rfl

/-- The text of the evaluation board describes the evaluation board. -/
theorem parse_evaluationText : parse? evaluationText = some evaluation := by
  rw [parse?, Toml.parse?, evaluationText, Spelled.toList_join (by
    dsimp only [evaluationLines]
    repeat apply Spelled.cons
    exact .nil)]
  decide +kernel

/-- Where no other board is chosen, the constants that are built are those of the evaluation board. -/
theorem build_evaluation {manifestDir outDir : String} (hmanifest : s.manifestDir = some manifestDir)
    (hout : s.outDir = some outDir)
    (hfile : s.file (s.boardPath.getD (defaultPath manifestDir)) = some evaluationText.toUTF8) :
    ((build s).run out).1 = .ok ⟨below outDir "amp_config.rs", evaluation.constantsText⟩ := by
  have hread := (described?_eq hfile).trans parse_evaluationText
  exact build_eq_ok_iff.mpr ⟨manifestDir, outDir, evaluation, hmanifest, hout, hread, rfl, rfl⟩

end Intercore.Board
