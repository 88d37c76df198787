import SchemaDefaults.Model.Json
import SchemaDefaults.Proofs.SteadyRecords
import SchemaDefaults.Proofs.SteadyTagged
/-!
Documents that are edited. Every reader of the model is steady, so a text is read as before with
other blanks, with the members of an object in another order, and with members that a structure
does not know. A member that is there twice is a fault of the text, whichever value it has.
-/

namespace SchemaDefaults

open Phrase (Edit Member Repeat)
open Reader (Steady record_steady string_steady bool_steady word32_steady string_map_steady)

namespace Decoding

theorem location_steady : Steady .location location := by
  unfold location
  apply record_steady
  exact .defaulted "system_id" none (string_steady .value).optional
    (.required "line" (word32_steady .value) (.required "column" (word32_steady .value) .nil))

section Tagged

open Tagged (Indifferent IndifferentParts)

theorem propertyOf_indifferent (kind : String) : IndifferentParts (propertyOf kind) := by
  apply Tagged.ite_indifferent
  · apply Tagged.members_indifferent
    exact List.forall_mem_singleton.mpr (Tagged.optional_indifferent Tagged.string_indifferent)
  · apply Tagged.ite_indifferent
    · exact Tagged.nothing_indifferent Property.element
    · exact Tagged.nothing_indifferent Property.other

theorem property_steady : Steady .value property :=
  Tagged.tagged_steady _ _ _ propertyOf propertyOf_indifferent

theorem integerKind_indifferent : Indifferent integerKind :=
  Tagged.bind_indifferent (Tagged.choice_indifferent _) _

theorem floatKind_indifferent : Indifferent floatKind :=
  Tagged.bind_indifferent (Tagged.choice_indifferent _) _

theorem literalOf_indifferent (kind : String) : IndifferentParts (literalOf kind) := by
  have string := Tagged.string_indifferent
  apply Tagged.ite_indifferent
  · exact Tagged.one_indifferent Tagged.bool_indifferent _ "value" _
  apply Tagged.ite_indifferent
  · exact Tagged.two_indifferent integerKind_indifferent string _ "ty" "digits" _
  apply Tagged.ite_indifferent
  · exact Tagged.two_indifferent floatKind_indifferent string _ "ty" "text" _
  apply Tagged.ite_indifferent
  · exact Tagged.one_indifferent string _ "text" _
  apply Tagged.ite_indifferent
  · exact Tagged.one_indifferent string _ "value" _
  · exact Tagged.two_indifferent string string _ "enum_name" "constant" _

theorem literal_steady : Steady .value literal :=
  Tagged.tagged_steady _ _ _ literalOf literalOf_indifferent

end Tagged

section Types

theorem enumConstant_steady : Steady .enumConstant enumConstant := by
  unfold enumConstant
  apply record_steady
  exact .required "value" (string_steady .value) (.required "constant" (string_steady .value) .nil)

theorem enumType_steady : Steady .enumType enumType := by
  unfold enumType
  apply record_steady
  exact .required "name" (string_steady .value)
    (.required "constants" enumConstant_steady.list .nil)

theorem typeKey_ok (key : Key) (name : String) (taken : typeKey key = .ok name) :
    key = .text (.ok name) ∧ name ∈ typeNames := by
  cases key with
  | broken => cases taken
  | stray found =>
      obtain ⟨_, _, refused⟩ := (bind_ok_iff ..).mp taken
      cases refused
  | text kept =>
      obtain ⟨read, rfl, listed⟩ := (bind_ok_iff ..).mp taken
      unfold typeName at listed
      split at listed
      · rename_i inside
        cases listed
        exact ⟨rfl, inside⟩
      · cases listed

theorem enum_of_no_plain (name : String) (listed : name ∈ typeNames)
    (parted : plainType? name = none) : name = "enum" := by
  rcases List.mem_append.mp listed with plain | last
  · obtain ⟨entry, inside, rfl⟩ := List.mem_map.mp plain
    have absent := List.find?_eq_none.mp (Option.map_eq_none_iff.mp parted) entry inside
    exact absurd (decide_eq_true rfl) absent
  · exact List.mem_singleton.mp last

/-- What stands behind the key of a type. -/
def keyedType (levels : Nat) (name : String) (value : Tree) : Except Fault FieldType :=
  match plainType? name with
  | some type => (nullValue levels value).map fun _ => type
  | none => (enumType levels value).map .enum

theorem fieldType_object (levels : Nat) (key : Key) (value : Tree) (rest : List (Key × Tree))
    (ending : Option Fault) :
    fieldType levels (.object ((key, value) :: rest) ending) =
      (Tree.enter levels >>= fun inner => typeKey key >>= fun name =>
        keyedType inner name value >>= fun type =>
          if rest.isEmpty then Tree.checkEnding ending >>= fun _ => .ok type
          else .error .malformed) := by
  refine bind_congr fun inner => bind_congr fun name => ?_
  unfold keyedType
  cases plainType? name with
  | none => rfl
  | some type => cases nullValue inner value <;> rfl

theorem fieldType_single {levels inner : Nat} (entered : Tree.enter levels = .ok inner)
    (key : Key) {name : String} (named : typeKey key = .ok name) (value : Tree) :
    fieldType levels (.object [(key, value)] none) = keyedType inner name value := by
  rw [fieldType_object, entered]
  show (typeKey key >>= fun name => keyedType inner name value >>= fun type => .ok type) = _
  rw [named]
  exact bind_pure (keyedType inner name value)

theorem fieldType_object_cases (levels : Nat) (members : List (Key × Tree))
    (ending : Option Fault) (type : FieldType)
    (taken : fieldType levels (.object members ending) = .ok type) :
    ∃ inner key name value, members = [(key, value)] ∧ ending = none ∧
      Tree.enter levels = .ok inner ∧ typeKey key = .ok name ∧
      keyedType inner name value = .ok type := by
  match members with
  | [] =>
      obtain ⟨_, _, behind⟩ := (bind_ok_iff ..).mp taken
      obtain ⟨_, _, refused⟩ := (bind_ok_iff ..).mp behind
      cases refused
  | (key, value) :: rest =>
      rw [fieldType_object] at taken
      obtain ⟨inner, entered, behind⟩ := (bind_ok_iff ..).mp taken
      obtain ⟨name, named, behind⟩ := (bind_ok_iff ..).mp behind
      obtain ⟨_, read, behind⟩ := (bind_ok_iff ..).mp behind
      cases rest with
      | cons => cases behind
      | nil =>
          obtain ⟨_, closed, same⟩ := (bind_ok_iff ..).mp behind
          cases same
          exact ⟨inner, key, name, value, rfl, (Tree.checkEnding_iff ending).mp closed, entered,
            named, read⟩

theorem nullValue_ok (levels : Nat) (tree : Tree) (taken : nullValue levels tree = .ok ()) :
    tree = .null := by
  cases tree with
  | null => rfl
  | bool | number | string | array | object | stump | broken =>
      exact absurd taken (Reader.refuse_not_ok _ _ _)

/-- Behind the key of a type stands nothing, or an enumeration. -/
theorem keyedType_cases (levels : Nat) (name : String) (listed : name ∈ typeNames) (value : Tree)
    (type : FieldType) (taken : keyedType levels name value = .ok type) :
    value = .null ∨ name = "enum" ∧ ∃ enumeration, enumType levels value = .ok enumeration ∧
      type = .enum enumeration := by
  unfold keyedType at taken
  cases plain : plainType? name with
  | some found =>
      rw [plain] at taken
      cases read : nullValue levels value with
      | error fault => rw [read] at taken; cases taken
      | ok _ => exact .inl (nullValue_ok levels value read)
  | none =>
      rw [plain] at taken
      cases read : enumType levels value with
      | error fault => rw [read] at taken; cases taken
      | ok enumeration =>
          rw [read] at taken
          cases taken
          exact .inr ⟨enum_of_no_plain name listed plain, enumeration, rfl, rfl⟩

theorem keyedType_enum (levels : Nat) (value : Tree) :
    keyedType levels "enum" value = (enumType levels value).map .enum := rfl

theorem keyedType_changed (levels : Nat) (name : String) (listed : name ∈ typeNames)
    {repeated? : Option String} {before replaced after : Phrase}
    (follows : Reader.Follows repeated? (Part.type.member (.ok name)) before replaced after)
    (compound : before.isCompound = true) (type : FieldType)
    (taken : keyedType levels name before.tree = .ok type) :
    keyedType levels name after.tree =
      (keyedType levels name replaced.tree >>= unlessRepeated repeated?) := by
  rcases keyedType_cases levels name listed before.tree type taken with
    absent | ⟨rfl, enumeration, read, rfl⟩
  · exact absurd absent (Reader.compound_present before compound)
  · rw [keyedType_enum, keyedType_enum, follows enumType enumType_steady levels enumeration read]
    cases enumType levels replaced.tree <;> cases repeated? <;> rfl

theorem fieldType_changed (levels : Nat) (front back : List Member) (key : Token.Letters)
    {repeated? : Option String} {before replaced after : Phrase}
    (follows : Reader.Follows repeated? (Part.type.member key.value) before replaced after)
    (compound : before.isCompound = true) (type : FieldType)
    (taken : fieldType levels (Phrase.object (front ++ (key, before) :: back)).tree = .ok type) :
    fieldType levels (Phrase.object (front ++ (key, after) :: back)).tree =
      (fieldType levels (Phrase.object (front ++ (key, replaced) :: back)).tree >>=
        unlessRepeated repeated?) := by
  simp only [Phrase.tree_object] at taken ⊢
  obtain ⟨inner, _, name, _, only, _, entered, named, read⟩ :=
    fieldType_object_cases levels _ none type taken
  obtain ⟨member, alone, same⟩ := List.map_eq_singleton_iff.mp only
  obtain ⟨rfl, rest⟩ | ⟨_, absent⟩ := List.append_eq_singleton_iff.mp alone
  · cases rest
    cases same
    obtain ⟨text, listed⟩ := typeKey_ok _ name named
    rw [show key.value = .ok name from Key.text.inj text] at follows
    have single (value : Phrase) : fieldType levels
        (.object (List.map Member.tree ([] ++ [(key, value)])) none) =
          keyedType inner name value.tree :=
      fieldType_single entered (.text key.value) named value.tree
    rw [single, single]
    exact keyedType_changed inner name listed follows compound type read
  · cases absent

theorem fieldType_steady : Steady .type fieldType := by
  constructor
  · intro levels tree type taken
    cases tree with
    | null | bool | number | string => rfl
    | array | stump | broken => cases taken
    | object members ending =>
        obtain ⟨inner, key, name, value, rfl, rfl, _, named, read⟩ :=
          fieldType_object_cases levels members ending type taken
        obtain ⟨rfl, listed⟩ := typeKey_ok key name named
        apply (Tree.whole_object_iff _ none).mpr
        refine ⟨List.forall_mem_singleton.mpr ⟨rfl, ?_⟩, rfl⟩
        rcases keyedType_cases inner name listed value type read with rfl | ⟨_, kept, first, _⟩
        · rfl
        · exact enumType_steady.whole inner value kept first
  · intro before after edit levels type taken
    cases edit with
    | item =>
        rw [Phrase.tree_array] at taken
        cases taken
    | insert _ isStructure => cases isStructure
    | reorder _ moved _ =>
        -- The only member has no other to change places with.
        rw [Phrase.tree_object] at taken ⊢
        obtain ⟨_, _, _, _, only, _⟩ := fieldType_object_cases levels _ none type taken
        obtain ⟨member, rfl, _⟩ := List.map_eq_singleton_iff.mp only
        rwa [← List.singleton_perm.mp moved]
    | member _ front back key edit =>
        rw [fieldType_changed levels front back key edit.follows edit.compound.1 type taken, taken]
        rfl
  · intro name before replaced after twice levels type taken
    cases twice with
    | item =>
        rw [Phrase.tree_array] at taken
        cases taken
    | behind _ isStructure | ahead _ isStructure => cases isStructure
    | member _ front back key inner =>
        exact fieldType_changed levels front back key inner.follows inner.compound.1 type taken

end Types

section Models

theorem customization_steady : Steady .customization customization := by
  unfold customization
  apply record_steady
  exact .required "namespace" (string_steady .value) (.required "tag" (string_steady .value)
    (.defaulted "attributes" SortedMap.empty string_map_steady
      (.defaulted "location" none location_steady.optional
        (.defaulted "acknowledged" false (bool_steady .value) .nil))))

theorem declaration_steady : Steady .declaration declaration := by
  unfold declaration
  apply record_steady
  exact .required "ty" fieldType_steady
    (.defaulted "initializer" none literal_steady.optional .nil)

theorem field_steady : Steady .field field := by
  unfold field
  apply record_steady
  exact .required "name" (string_steady .value) (.defaulted "property" .other property_steady
    (.defaulted "customizations" [] customization_steady.list
      (.defaulted "location" none location_steady.optional
        (.defaulted "declaration" none declaration_steady.optional .nil))))

theorem generatedClass_steady : Steady .generatedClass generatedClass := by
  unfold generatedClass
  apply record_steady
  exact .required "name" (string_steady .value)
    (.defaulted "location" none location_steady.optional
      (.defaulted "fields" [] field_steady.list .nil))

theorem document_steady : Steady .document document := by
  unfold document
  apply record_steady
  exact .required "classes" generatedClass_steady.list .nil

end Models

end Decoding

section Texts

theorem Reader.ofText_ok {α : Type} (read : Reader α) (text : String) (value : α)
    (taken : read.ofText text = .ok value) : ∃ tree, Tree.ofText text.toList = (tree, false) ∧
      read Tree.depthLimit tree = .ok value := by
  unfold Reader.ofText at taken
  cases built : Tree.ofText text.toList with
  | mk tree goesOn =>
      rw [built] at taken
      obtain ⟨value', inner, behind⟩ := (bind_ok_iff ..).mp taken
      cases goesOn with
      | true => cases behind
      | false =>
          cases behind
          exact ⟨tree, rfl, inner⟩

theorem Reader.ofText_spelled {α : Type} (read : Reader α) (phrase : Phrase) (text : String)
    (spelled : phrase.Spells text) : read.ofText text = read Tree.depthLimit phrase.tree := by
  unfold Reader.ofText
  rw [Phrase.tree_spelled phrase text spelled]
  exact bind_pure (read Tree.depthLimit phrase.tree)

/-- A text that is read says a phrase. Each text of the phrase is read in the same way, and so is
each text of an edited phrase. With a member twice a text is refused: for the repeated member, whose
name is told, unless the member that comes first has a value that is refused by itself. -/
theorem Document.edited_text_read (text : String) (document : Document)
    (read : Document.ofText text = .ok document) :
    (∃ phrase : Phrase, phrase.Spells text) ∧ ∀ phrase : Phrase, phrase.Spells text →
      (∀ other, phrase.Spells other → Document.ofText other = .ok document) ∧
      (∀ edited other, Edit .document phrase edited → edited.Spells other →
        Document.ofText other = .ok document) ∧
      ∀ name replaced twice inPlace other, Repeat name .document phrase replaced twice →
        replaced.Spells inPlace → twice.Spells other →
        (∀ document', Document.ofText inPlace = .ok document' →
          Document.ofText other = .error (.mismatch (.duplicate name))) ∧
        ∀ fault, Document.ofText inPlace = .error fault →
          Document.ofText other = .error fault := by
  obtain ⟨tree, built, taken⟩ := Reader.ofText_ok Decoding.document text document read
  have whole := Decoding.document_steady.whole Tree.depthLimit tree document taken
  obtain ⟨phrase, spelled, _⟩ := Phrase.spelled_of_whole text tree built whole
  refine ⟨⟨phrase, spelled⟩, fun phrase spelled => ?_⟩
  have said (phrase : Phrase) (text : String) (spelled : phrase.Spells text) :
      Document.ofText text = Decoding.document Tree.depthLimit phrase.tree :=
    Reader.ofText_spelled Decoding.document phrase text spelled
  have before : Decoding.document Tree.depthLimit phrase.tree = .ok document := by
    rw [← said phrase text spelled]
    exact read
  refine ⟨?_, ?_, ?_⟩
  · intro other spelled'
    rw [said phrase other spelled']
    exact before
  · intro edited other edit spelled'
    rw [said edited other spelled']
    exact Decoding.document_steady.edited phrase edited edit Tree.depthLimit document before
  · intro name replaced twice inPlace other repeated spelled' spelled''
    rw [said replaced inPlace spelled', said twice other spelled'',
      Decoding.document_steady.repeated name phrase replaced twice repeated Tree.depthLimit
        document before]
    constructor
    · intro document' read'
      rw [read']
      rfl
    · intro fault refused
      rw [refused]
      rfl

/-- Letters that stand for themselves. -/
def sampleLetters (text : List Char)
    (plain : ∀ c ∈ text, c ≠ '"' ∧ c ≠ '\\' ∧ 0x20 ≤ c.toNat) : Token.Letters :=
  text.pmap (fun c plain => .plain c plain.1 plain.2.1 plain.2.2) plain

def sampleClasses : Token.Letters := sampleLetters ['c', 'l', 'a', 's', 's', 'e', 's'] (by simp)

def sampleName : Token.Letters := sampleLetters ['n', 'a', 'm', 'e'] (by simp)

def sampleNote : Token.Letters := sampleLetters ['n', 'o', 't', 'e'] (by simp)

/-- A document of one class with these members. -/
def sampleDocument (members : List Member) : Phrase :=
  .object [(sampleClasses, .array [.object members])]

theorem sample_edited_text :
    Document.ofText "\x7b\"classes\":[\x7b\"name\":\"\"\x7d]\x7d" = .ok ⟨[⟨"", none, []⟩]⟩ ∧
      Document.ofText " \x7b\"classes\":[\x7b\"name\":\"\"\x7d]\x7d" =
        .ok ⟨[⟨"", none, []⟩]⟩ ∧
      Document.ofText "\x7b\"classes\":[\x7b\"note\":[[]],\"name\":\"\"\x7d]\x7d" =
        .ok ⟨[⟨"", none, []⟩]⟩ ∧
      Document.ofText "\x7b\"classes\":[\x7b\"name\":\"\",\"name\":null\x7d]\x7d" =
        .error (.mismatch (.duplicate "name")) ∧
      Document.ofText "\x7b\"classes\":[\x7b\"name\":\"classes\",\"name\":\"\"\x7d]\x7d" =
        .error (.mismatch (.duplicate "name")) := by
  have spelled : (sampleDocument [(sampleName, .string [])]).Spells
      "\x7b\"classes\":[\x7b\"name\":\"\"\x7d]\x7d" :=
    Phrase.spells_text (sampleDocument [(sampleName, .string [])])
  have read : Document.ofText "\x7b\"classes\":[\x7b\"name\":\"\"\x7d]\x7d" =
      .ok ⟨[⟨"", none, []⟩]⟩ :=
    (Reader.ofText_spelled Decoding.document _ _ spelled).trans rfl
  obtain ⟨_, edits⟩ := Document.edited_text_read _ _ read
  obtain ⟨blanks, harmless, repeated⟩ := edits _ spelled
  have inside {before replaced after : List Member}
      (twice : Repeat "name" .generatedClass (.object before) (.object replaced) (.object after)) :
      Repeat "name" .document (sampleDocument before) (sampleDocument replaced)
        (sampleDocument after) :=
    .member .document [] [] sampleClasses (.item (.list .generatedClass) [] [] twice)
  refine ⟨read, blanks _ (spelled.indented ' ' rfl), ?_, ?_, ?_⟩
  · have noted : Edit .document (sampleDocument [(sampleName, .string [])])
        (sampleDocument [(sampleNote, .array [.array []]), (sampleName, .string [])]) :=
      .member .document [] [] sampleClasses (.item (.list .generatedClass) [] []
        (.insert .generatedClass rfl [] _ sampleNote (.array [.array []]) "note" rfl (by decide)))
    exact harmless _ _ noted (Phrase.spells_text _)
  · have behind : Repeat "name" .generatedClass (.object [(sampleName, .string [])])
        (.object [(sampleName, .string [])])
        (.object [(sampleName, .string []), (sampleName, .null)]) :=
      .behind .generatedClass rfl [(sampleName, .string [])] [] (by decide) _ List.mem_cons_self
        rfl sampleName .null rfl
    exact (repeated "name" _ _ _ _ (inside behind) spelled (Phrase.spells_text _)).1 _ read
  · have ahead : Repeat "name" .generatedClass (.object [(sampleName, .string [])])
        (.object [(sampleName, .string sampleClasses)])
        (.object [(sampleName, .string sampleClasses), (sampleName, .string [])]) :=
      .ahead .generatedClass rfl [] [] [] (by decide) sampleName rfl (.string []) sampleName
        (.string sampleClasses) rfl
    have spelled' := Phrase.spells_text (sampleDocument [(sampleName, .string sampleClasses)])
    have read' : Document.ofText (sampleDocument [(sampleName, .string sampleClasses)]).text =
        .ok ⟨[⟨"classes", none, []⟩]⟩ :=
      (Reader.ofText_spelled Decoding.document _ _ spelled').trans rfl
    exact (repeated "name" _ _ _ _ (inside ahead) spelled' (Phrase.spells_text _)).1 _ read'

/-- The value of the first member is refused before the second one is met. -/
theorem early_value_refused :
    Repeat "classes" .document (.object [(sampleClasses, .array [])])
        (.object [(sampleClasses, .null)])
        (.object [(sampleClasses, .null), (sampleClasses, .array [])]) ∧
      Phrase.Spells (.object [(sampleClasses, .array [])]) "\x7b\"classes\":[]\x7d" ∧
      Phrase.Spells (.object [(sampleClasses, .null), (sampleClasses, .array [])])
        "\x7b\"classes\":null,\"classes\":[]\x7d" ∧
      Document.ofText "\x7b\"classes\":[]\x7d" = .ok ⟨[]⟩ ∧
      Document.ofText "\x7b\"classes\":null,\"classes\":[]\x7d" =
        .error (.mismatch (.wrongType .null "a sequence")) := by
  have spelled : Phrase.Spells (.object [(sampleClasses, .array [])]) "\x7b\"classes\":[]\x7d" :=
    Phrase.spells_text (.object [(sampleClasses, .array [])])
  have spelled' : Phrase.Spells (.object [(sampleClasses, .null), (sampleClasses, .array [])])
      "\x7b\"classes\":null,\"classes\":[]\x7d" :=
    Phrase.spells_text (.object [(sampleClasses, .null), (sampleClasses, .array [])])
  refine ⟨?_, spelled, spelled', ?_, ?_⟩
  · exact .ahead .document rfl [] [] [] (by decide) sampleClasses rfl (.array []) sampleClasses
      .null rfl
  · exact (Reader.ofText_spelled Decoding.document _ _ spelled).trans rfl
  · exact (Reader.ofText_spelled Decoding.document _ _ spelled').trans rfl

end Texts

end SchemaDefaults
