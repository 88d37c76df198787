import SchemaDefaults.Proofs.Lookahead
import SchemaDefaults.Proofs.Template
/-!
Texts in double quotes. A word that is put between the quotes is read as itself if each of its
characters stands for itself there. So a text with holes can be read with any such word in them,
and comes to the word in its place.
-/

namespace SchemaDefaults.Toml

open Template

def isPlain (c : Char) : Bool := isLineChar c && c != '"' && c != '\\'

namespace Quoted

section Words

theorem step_text (c : Char) (rest : List Char) :
    step .basic .text c rest =
      if c = '"' then .closed []
      else if c = '\\' then .more .backslash []
      else if isLineChar c then .more .text [c]
      else .broken := by
  by_cases newline : c = '\n'
  · subst newline
    rfl
  · by_cases carriageReturn : c = '\r'
    · subst carriageReturn
      rfl
    · simp [step, textStep, quoteStep, QuoteForm.basic, newline, carriageReturn]

theorem step_plain (c : Char) (rest : List Char) (plain : isPlain c = true) :
    step .basic .text c rest = .more .text [c] := by
  simp only [isPlain, Bool.and_eq_true, bne_iff_ne] at plain
  obtain ⟨⟨inLine, quote⟩, backslash⟩ := plain
  rw [step_text, if_neg quote, if_neg backslash, if_pos inLine]

theorem readFrom_plain (word done text : List Char) (plain : ∀ c ∈ word, isPlain c = true) :
    readFrom .basic .text done (word ++ text) =
      readFrom .basic .text (word.reverse ++ done) text := by
  induction word generalizing done with
  | nil => rfl
  | cons c word ih =>
      rw [List.cons_append, readFrom, step_plain c _ (plain c List.mem_cons_self)]
      dsimp only
      rw [ih _ fun d member => plain d (List.mem_cons_of_mem _ member)]
      simp

end Words

section Bodies

/-- On one line, a quote closes the text whatever follows. -/
theorem step_basic (place : Place) (c : Char) (rest other : List Char) :
    step .basic place c rest = step .basic place c other :=
  rfl

/-- From a place between double quotes to behind the closing one: the letters, what they write,
and the rest. A hole is no part of an escape. -/
inductive Body : Place → Template → Template → Template → Prop where
  | closed (rest : Template) : Body .text (some '"' :: rest) [] rest
  | letter (place next : Place) (c : Char) (written : List Char) (text content rest : Template)
      (stepped : step .basic place c [] = .more next written)
      (later : Body next text content rest) :
      Body place (some c :: text) (solid written ++ content) rest
  | hole (text content rest : Template) (later : Body .text text content rest) :
      Body .text (none :: text) (none :: content) rest

theorem Body.read {place : Place} {text content rest : Template}
    (body : Body place text content rest) (word : List Char)
    (plain : ∀ c ∈ word, isPlain c = true) (done : List Char) :
    readFrom .basic place done (fill word text) =
      some (String.ofList (done.reverse ++ fill word content), fill word rest) := by
  induction body generalizing done with
  | closed rest => simp [fill, readFrom, step_text]
  | letter place next c written text content rest stepped later ih =>
      rw [fill, readFrom, step_basic place c _ [], stepped]
      dsimp only
      rw [ih, fill_front]
      simp
  | hole text content rest later ih =>
      rw [fill, readFrom_plain word done _ plain, ih]
      simp [fill]

theorem Body.of_plain (word : List Char) (plain : ∀ c ∈ word, isPlain c = true)
    {text content rest : Template} (body : Body .text text content rest) :
    Body .text (solid word ++ text) (solid word ++ content) rest := by
  induction word with
  | nil => exact body
  | cons c word ih =>
      have later := ih fun d member => plain d (List.mem_cons_of_mem _ member)
      exact .letter .text .text c [c] _ _ _ (step_plain c [] (plain c List.mem_cons_self)) later

theorem Body.length_le {place : Place} {text content rest : Template}
    (body : Body place text content rest) (word : List Char) :
    (fill word rest).length ≤ (fill word text).length := by
  induction body with
  | closed rest => simp [fill]
  | letter place next c written text content rest stepped later ih =>
      simp only [fill, List.length_cons]
      omega
  | hole text content rest later ih =>
      simp only [fill, List.length_append]
      omega

end Bodies

end Quoted

section Follow

/-- A reader that looks at the first letter, and behind a space at one more, sees no hole. -/
def Firm : Template → Prop
  | [] => True
  | none :: _ => False
  | some c :: rest => c = ' ' → rest.head? ≠ some none

theorem Firm.agree {rest : Template} (firm : Firm rest) (first second : List Char) :
    Agree (fill first rest) (fill second rest) := by
  rcases rest with _ | ⟨_ | c, rest⟩
  · exact ⟨rfl, fun _ => rfl⟩
  · cases firm
  · refine ⟨rfl, fun space => ?_⟩
    have solid := firm (Option.some.inj space)
    rcases rest with _ | ⟨_ | d, rest⟩
    · rfl
    · exact absurd rfl solid
    · rfl

/-- Also with an empty word, the opening quote is not the first one of three. -/
theorem Quoted.Body.untripled {text content rest : Template} (body : Body .text text content rest)
    (word : List Char) (plain : ∀ c ∈ word, isPlain c = true) (firm : Firm rest)
    (single : rest.head? ≠ some (some '"')) : (fill word text).take 2 ≠ ['"', '"'] := by
  generalize opened : Place.text = place at body
  induction body with
  | closed rest =>
      rcases rest with _ | ⟨_ | c, rest⟩
      · simp [fill]
      · cases firm
      · intro tripled
        simp only [fill, List.take_succ_cons, List.take_zero, List.cons.injEq, true_and,
          and_true] at tripled
        exact single (by rw [tripled]; rfl)
  | letter place next c written text content rest stepped later ih =>
      subst opened
      intro tripled
      simp only [fill, List.take_succ_cons, List.cons.injEq] at tripled
      rw [tripled.1] at stepped
      cases stepped
  | hole text content rest later ih =>
      cases word with
      | nil => exact ih firm single rfl
      | cons c word =>
          intro tripled
          simp only [fill, List.cons_append, List.take_succ_cons, List.cons.injEq] at tripled
          have hidden := plain c List.mem_cons_self
          rw [tripled.1] at hidden
          cases hidden

/-- A text with holes between double quotes is read with any word that may stand there. -/
theorem Quoted.Body.read?_filled {text content rest : Template}
    (body : Body .text text content rest) (word : List Char)
    (plain : ∀ c ∈ word, isPlain c = true) (firm : Firm rest)
    (single : rest.head? ≠ some (some '"')) :
    read? (fill word (some '"' :: text)) =
      some (String.ofList (fill word content), fill word rest) := by
  have read := body.read word plain []
  rw [List.reverse_nil, List.nil_append] at read
  rw [fill, read?_cons, if_pos rfl, if_neg (body.untripled word plain firm single)]
  exact read

end Follow

end SchemaDefaults.Toml
