import SchemaDefaults.Proofs.QuotedText
import SchemaDefaults.Settings.File
/-!
What substitution reads in a text. Every text falls into references and plain text in exactly one
way, by looking again and again for the leftmost reference behind the last one. Substitution puts
the values of the set names in the places of their references and leaves all else as it is.
-/

namespace SchemaDefaults

namespace Environment

section References

/-- A name is not empty, may hold anything but a closing brace, and so runs up to the next one. -/
def IsName (name : List Char) : Prop := name ≠ [] ∧ '\x7d' ∉ name

def reference (name : List Char) : List Char := Reading.opening ++ (name ++ ['\x7d'])

def StartsWithReference (text : List Char) : Prop :=
  ∃ name rest, IsName name ∧ text = reference name ++ rest

/-- A name that is referred to, and the plain text in front of the reference. -/
structure Segment where
  front : List Char
  name : List Char

/-- A text read from left to right: the segments up to the last reference, and the plain text
behind it. -/
inductive Read : List Char → List Segment → List Char → Prop where
  | ends {text : List Char}
      (bare : ∀ start back, text = start ++ back → ¬ StartsWithReference back) : Read text [] text
  | refers {front name rest last : List Char} {segments : List Segment} (named : IsName name)
      (leftmost : ∀ start back, front ++ (reference name ++ rest) = start ++ back →
        start.length < front.length → ¬ StartsWithReference back)
      (later : Read rest segments last) :
      Read (front ++ (reference name ++ rest)) (⟨front, name⟩ :: segments) last

def valueOf (environment : Environment) (name : List Char) : List Char :=
  match environment (String.ofList name) with
  | some value => value.toList
  | none => reference name

def filled (environment : Environment) (segments : List Segment) (last : List Char) : List Char :=
  segments.flatMap (fun segment => segment.front ++ environment.valueOf segment.name) ++ last

def namesOf (segments : List Segment) : List String :=
  segments.map fun segment => String.ofList segment.name

theorem replacement_valueOf (environment : Environment) (letter : Char) (letters : List Char) :
    environment.replacement (letter :: letters) =
      environment.valueOf (letter :: letters).reverse := by
  unfold replacement valueOf reference
  cases environment (String.ofList (letter :: letters).reverse) with
  | some value => rfl
  | none => exact List.append_assoc _ _ _

end References

section Starts

theorem starts_dollar (c : Char) (rest : List Char) (starts : StartsWithReference (c :: rest)) :
    c = '$' := by
  obtain ⟨name, behind, _, same⟩ := starts
  exact (List.cons.inj same).1

theorem starts_brace (c : Char) (rest : List Char)
    (starts : StartsWithReference ('$' :: c :: rest)) : c = '\x7b' := by
  obtain ⟨name, behind, _, same⟩ := starts
  exact (List.cons.inj (List.cons.inj same).2).1

theorem starts_name (rest : List Char) :
    ¬ StartsWithReference ('$' :: '\x7b' :: '\x7d' :: rest) := by
  rintro ⟨name, behind, ⟨nonempty, open_⟩, same⟩
  cases name with
  | nil => exact nonempty rfl
  | cons c name =>
      have first : '\x7d' = c := (List.cons.inj (List.cons.inj (List.cons.inj same).2).2).1
      exact open_ (first ▸ List.mem_cons_self)

theorem starts_closed (text : List Char) (starts : StartsWithReference text) : '\x7d' ∈ text := by
  obtain ⟨name, behind, _, rfl⟩ := starts
  simp [reference]

end Starts

section Unique

theorem reference_unique {name name' rest rest' : List Char} (named : IsName name)
    (named' : IsName name') (same : reference name ++ rest = reference name' ++ rest') :
    name = name' ∧ rest = rest' := by
  simp only [reference, Reading.opening, List.cons_append, List.nil_append, List.append_assoc,
    List.cons.injEq, true_and] at same
  exact Text.cut_unique named.2 named'.2 same

theorem Read.bare {text last : List Char} (read : Read text [] last) :
    last = text ∧ ∀ start back, text = start ++ back → ¬ StartsWithReference back := by
  cases read with
  | ends bare => exact ⟨rfl, bare⟩

theorem Read.head {text last : List Char} {segment : Segment} {segments : List Segment}
    (read : Read text (segment :: segments) last) :
    ∃ rest, text = segment.front ++ (reference segment.name ++ rest) ∧ IsName segment.name ∧
      (∀ start back, text = start ++ back → start.length < segment.front.length →
        ¬ StartsWithReference back) ∧ Read rest segments last := by
  cases read with
  | @refers front name rest _ _ named leftmost later => exact ⟨rest, rfl, named, leftmost, later⟩

theorem Read.unique {text last last' : List Char} {segments segments' : List Segment}
    (one : Read text segments last) (other : Read text segments' last') :
    segments = segments' ∧ last = last' := by
  induction one generalizing segments' last' with
  | ends bare =>
      cases segments' with
      | nil => exact ⟨rfl, other.bare.1.symm⟩
      | cons segment segments' =>
          obtain ⟨rest, split, named, _, _⟩ := other.head
          exact absurd ⟨segment.name, rest, named, rfl⟩ (bare _ _ split)
  | @refers front name rest last segments named leftmost later ih =>
      cases segments' with
      | nil => exact absurd ⟨name, rest, named, rfl⟩ (other.bare.2 front _ rfl)
      | cons segment segments' =>
          obtain ⟨rest', split, named', leftmost', later'⟩ := other.head
          -- Neither reference stands to the left of the other one.
          have notLess : ¬ segment.front.length < front.length := fun less =>
            leftmost _ _ split less ⟨segment.name, rest', named', rfl⟩
          have notMore : ¬ front.length < segment.front.length := fun more =>
            leftmost' _ _ rfl more ⟨name, rest, named, rfl⟩
          obtain ⟨sameFront, sameBack⟩ := List.append_inj split (by omega)
          obtain ⟨sameName, sameRest⟩ := reference_unique named named' sameBack
          subst sameRest
          obtain ⟨sameSegments, sameLast⟩ := ih later'
          rw [sameFront, sameName, sameSegments]
          exact ⟨rfl, sameLast⟩

end Unique

section Reading

/-- The text has a reading in which the names are these, and which becomes this when it is
filled. -/
def Becomes (text : List Char) (written : Environment → List Char) (names : List String) : Prop :=
  ∃ segments last, Read text segments last ∧
    (∀ environment : Environment, written environment = environment.filled segments last) ∧
    names = namesOf segments

theorem becomes_plain (text : List Char) (unclosed : '\x7d' ∉ text) :
    Becomes text (fun _ => text) [] := by
  refine ⟨[], text, .ends ?_, fun _ => rfl, rfl⟩
  rintro start back rfl starts
  exact unclosed (List.mem_append_right start (starts_closed back starts))

/-- A character at which no reference starts belongs to the plain text in front of the next. -/
theorem Becomes.pass {text : List Char} {written : Environment → List Char} {names : List String}
    (becomes : Becomes text written names) (c : Char)
    (bare : ¬ StartsWithReference (c :: text)) :
    Becomes (c :: text) (fun environment => c :: written environment) names := by
  obtain ⟨segments, last, read, fills, named⟩ := becomes
  cases read with
  | ends bareText =>
      refine ⟨[], c :: text, .ends ?_, fun environment => ?_, named⟩
      · intro start back split
        cases start with
        | nil => rwa [← show c :: text = back from split]
        | cons d start => exact bareText start back (List.cons.inj split).2
      · simp [fills, filled]
  | @refers front name rest _ segments isName leftmost later =>
      have first : ∀ start back, (c :: front) ++ (reference name ++ rest) = start ++ back →
          start.length < (c :: front).length → ¬ StartsWithReference back := by
        intro start back split shorter
        cases start with
        | nil => rwa [← show c :: (front ++ (reference name ++ rest)) = back from split]
        | cons d start =>
            exact leftmost start back (List.cons.inj split).2 (Nat.lt_of_succ_lt_succ shorter)
      refine ⟨⟨c :: front, name⟩ :: segments, last, .refers isName first later, ?_, named⟩
      intro environment
      simp [fills, filled]

theorem Becomes.refer {rest : List Char} {written : Environment → List Char}
    {names : List String} (becomes : Becomes rest written names) (name : List Char)
    (isName : IsName name) :
    Becomes (reference name ++ rest)
      (fun environment => environment.valueOf name ++ written environment)
      (String.ofList name :: names) := by
  obtain ⟨segments, last, read, fills, named⟩ := becomes
  have first : ∀ start back, [] ++ (reference name ++ rest) = start ++ back →
      start.length < ([] : List Char).length → ¬ StartsWithReference back :=
    fun _ _ _ shorter => absurd shorter (Nat.not_lt_zero _)
  refine ⟨⟨[], name⟩ :: segments, last, .refers isName first read, fun environment => ?_, ?_⟩
  · simp [fills, filled]
  · rw [named]
    rfl

def Reading.Unclosed : Reading → Prop
  | .outside | .dollar => True
  | .name letters => '\x7d' ∉ letters

theorem pending_unclosed (reading : Reading) (unclosed : reading.Unclosed) :
    '\x7d' ∉ reading.pending := by
  cases reading with
  | outside | dollar => decide
  | name letters =>
      have opening : '\x7d' ∉ Reading.opening := by decide
      simp only [Reading.pending, List.mem_append, List.mem_reverse, not_or]
      exact ⟨opening, unclosed⟩

/-- What has been read but not written yet is in front of what is still to be read. -/
theorem becomes_from (reading : Reading) (unclosed : reading.Unclosed) (text : List Char) :
    Becomes (reading.pending ++ text) (·.substituteFrom reading text)
      (referencesFrom reading text) := by
  induction text generalizing reading with
  | nil =>
      rw [List.append_nil]
      exact becomes_plain _ (pending_unclosed reading unclosed)
  | cons c rest ih =>
      cases reading with
      | outside =>
          by_cases dollar : c = '$'
          · subst dollar
            exact ih .dollar trivial
          · have later := (ih .outside trivial).pass c fun starts =>
              dollar (starts_dollar c rest starts)
            simp only [substituteFrom, referencesFrom, step, completed?, dollar, ↓reduceIte]
            exact later
      | dollar =>
          by_cases brace : c = '\x7b'
          · subst brace
            exact ih (.name []) List.not_mem_nil
          · have bare : ¬ StartsWithReference ('$' :: c :: rest) := fun starts =>
              brace (starts_brace c rest starts)
            by_cases dollar : c = '$'
            · subst dollar
              exact (ih .dollar trivial).pass '$' bare
            · have later := ((ih .outside trivial).pass c fun starts =>
                dollar (starts_dollar c rest starts)).pass '$' bare
              simp only [substituteFrom, referencesFrom, step, completed?, brace, dollar,
                ↓reduceIte]
              exact later
      | name letters =>
          by_cases close : c = '\x7d'
          · subst close
            cases letters with
            | nil =>
                -- An empty name is none, and neither brace starts a reference.
                exact (((ih .outside trivial).pass '\x7d' fun starts =>
                  absurd (starts_dollar _ _ starts) (by decide)).pass '\x7b' fun starts =>
                    absurd (starts_dollar _ _ starts) (by decide)).pass '$' (starts_name rest)
            | cons letter letters =>
                have isName : IsName (letter :: letters).reverse :=
                  ⟨by simp, fun member => unclosed (List.mem_reverse.mp member)⟩
                have later := (ih .outside trivial).refer _ isName
                have front : Reading.pending (.name (letter :: letters)) ++ '\x7d' :: rest =
                    reference (letter :: letters).reverse ++ rest := by
                  simp [Reading.pending, reference]
                simp only [substituteFrom, referencesFrom, step, completed?, ↓reduceIte, front,
                  replacement_valueOf]
                exact later
          · have name : Reading.Unclosed (.name (c :: letters)) := by
              intro member
              rcases List.mem_cons.mp member with same | inside
              · exact close same.symm
              · exact unclosed inside
            have later := ih (.name (c :: letters)) name
            have unfinished : completed? (.name letters) c = none := by
              cases letters <;> simp [completed?, close]
            have front : Reading.pending (.name letters) ++ c :: rest =
                Reading.pending (.name (c :: letters)) ++ rest := by simp [Reading.pending]
            simp only [substituteFrom, referencesFrom, step, unfinished, close, ↓reduceIte, front]
            exact later

theorem becomes (text : String) :
    Becomes text.toList (fun environment => (environment.substitute text).toList)
      (references text) := by
  simp only [substitute, String.toList_ofList]
  exact becomes_from .outside trivial text.toList

end Reading

section Values

theorem filled_unset (environment : Environment) {text last : List Char}
    {segments : List Segment} (read : Read text segments last)
    (unset : ∀ name ∈ namesOf segments, environment name = none) :
    environment.filled segments last = text := by
  induction read with
  | ends bare => rfl
  | @refers front name rest last segments named leftmost later ih =>
      have kept : environment.valueOf name = reference name := by
        simp only [valueOf, unset _ List.mem_cons_self]
      have behind := ih fun other inside => unset other (List.mem_cons_of_mem _ inside)
      simp only [filled, List.flatMap_cons, List.append_assoc, kept] at behind ⊢
      rw [behind]

theorem filled_congr (first second : Environment) (segments : List Segment) (last : List Char)
    (agree : ∀ name ∈ namesOf segments, first name = second name) :
    first.filled segments last = second.filled segments last := by
  have same : ∀ segment ∈ segments, first.valueOf segment.name = second.valueOf segment.name := by
    intro segment inside
    simp only [valueOf, agree _ (List.mem_map_of_mem inside)]
  simp only [filled]
  rw [List.flatMap_congr fun segment inside => by rw [same segment inside]]

end Values

/-- A text is read once, from left to right, and in one way only. Each reference that the reading
finds gives way to the value of its name, if the name is set, and all else is copied; what is
inserted is not read. So only the values of the names that are found matter, and the text stays
as it is if none of them is set. -/
theorem substitution_exact (text : String) :
    ∃ segments last, Read text.toList segments last ∧
      (∀ segments' last', Read text.toList segments' last' →
        segments' = segments ∧ last' = last) ∧
      references text = namesOf segments ∧
      (∀ environment : Environment,
        (environment.substitute text).toList = environment.filled segments last) ∧
      (∀ environment : Environment, (∀ name ∈ references text, environment name = none) →
        environment.substitute text = text) ∧
      ∀ first second : Environment, (∀ name ∈ references text, first name = second name) →
        first.substitute text = second.substitute text := by
  obtain ⟨segments, last, read, fills, named⟩ := becomes text
  refine ⟨segments, last, read, fun _ _ other => other.unique read, named, fills, ?_, ?_⟩
  · intro environment unset
    rw [named] at unset
    exact String.toList_inj.mp ((fills environment).trans (filled_unset environment read unset))
  · intro first second agree
    rw [named] at agree
    apply String.toList_inj.mp
    calc (first.substitute text).toList = first.filled segments last := fills first
      _ = second.filled segments last := filled_congr first second segments last agree
      _ = (second.substitute text).toList := (fills second).symm

def sampleText : String := "$$\x7bA\x7d$\x7b\x7d$\x7bB$\x7bC\x7d$\x7b"

theorem sample_substitution :
    references sampleText = ["A", "B$\x7bC"] ∧ empty.substitute sampleText = sampleText ∧
      (ofList [("A", "$\x7bC\x7d")]).substitute sampleText =
        (ofList [("A", "$\x7bC\x7d"), ("C", "1")]).substitute sampleText := by
  obtain ⟨_, _, _, _, _, _, unset, agree⟩ := substitution_exact sampleText
  exact ⟨by decide, unset empty fun _ _ => rfl, agree _ _ (by decide)⟩

end Environment

end SchemaDefaults
