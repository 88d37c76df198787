import SchemaDefaults.Command
import SchemaDefaults.Proofs.WrittenRecord
/-!
Texts of documents. Each part of a model is read back from its own JSON form, whatever it says
and whatever it leaves out, so a document is read back from its text in either layout.
-/

namespace SchemaDefaults

namespace Decoding

open Reader (Inverts record_inverts string_inverts bool_inverts word32_inverts map_inverts)

theorem location_inverts : Inverts location Location.toJson 1 := by
  apply record_inverts (by decide)
  intro levels l deep
  refine ⟨_, (l.systemId, l.line, l.column, ()), rfl, rfl, ?_⟩
  exact .optional string_inverts deep _ l.systemId
    (.required word32_inverts deep _ l.line (.required word32_inverts deep _ l.column .nil))

section Tagged

theorem property_inverts : Inverts property Property.toJson 1 := by
  apply Tagged.tagged_inverts
  intro p
  cases p with
  | «attribute» default =>
      cases default with
      | none => exact ⟨"attribute", [], rfl, by decide, by simp, rfl⟩
      | some text =>
          exact ⟨"attribute", [("default", .string text)], rfl, by decide,
            by simp [Tagged.Scalar], rfl⟩
  | element => exact ⟨"element", [], rfl, by decide, by simp, rfl⟩
  | other => exact ⟨"other", [], rfl, by decide, by simp, rfl⟩

theorem literal_inverts : Inverts literal Literal.toJson 1 := by
  apply Tagged.tagged_inverts
  intro l
  cases l with
  | bool value =>
      exact ⟨"bool", [("value", .bool value)], rfl, by decide, by simp [Tagged.Scalar], rfl⟩
  | integer kind digits =>
      exact ⟨"int", [("ty", .string kind.name), ("digits", .string digits)], rfl, by decide,
        by simp [Tagged.Scalar], by cases kind <;> rfl⟩
  | float kind text =>
      exact ⟨"float", [("ty", .string kind.name), ("text", .string text)], rfl, by decide,
        by simp [Tagged.Scalar], by cases kind <;> rfl⟩
  | decimal text =>
      exact ⟨"decimal", [("text", .string text)], rfl, by decide, by simp [Tagged.Scalar], rfl⟩
  | string value =>
      exact ⟨"str", [("value", .string value)], rfl, by decide, by simp [Tagged.Scalar], rfl⟩
  | enumConstant enumName constant =>
      exact ⟨"enum_constant", [("enum_name", .string enumName), ("constant", .string constant)],
        rfl, by decide, by simp [Tagged.Scalar], rfl⟩

end Tagged

section Types

theorem enumConstant_inverts : Inverts enumConstant EnumConstant.toJson 1 := by
  apply record_inverts (by decide)
  intro levels c deep
  refine ⟨_, (c.value, c.constant, ()), rfl, rfl, ?_⟩
  exact .required string_inverts deep _ c.value (.required string_inverts deep _ c.constant .nil)

theorem enumType_inverts : Inverts enumType EnumType.toJson 3 := by
  apply record_inverts (by decide)
  intro levels e deep
  refine ⟨_, (e.name, e.constants, ()), rfl, rfl, ?_⟩
  exact .required string_inverts (Nat.zero_le levels) _ e.name
    (.required enumConstant_inverts.list deep _ e.constants .nil)

/-- A type without parts is written as its word. -/
theorem fieldType_word (levels : Nat) (word : String) (type : FieldType)
    (listed : word ∈ typeNames) (plain : plainType? word = some type) :
    fieldType levels (Json.string word).tree = .ok type := by
  simp only [Json.tree, fieldType, bind, Except.bind, typeName, listed, ↓reduceIte, plain]
  rfl

theorem fieldType_inverts : Inverts fieldType FieldType.toJson 4 := by
  refine ⟨?_, ?_, ?_⟩
  · intro type
    cases type with
    | «enum» e => exact ⟨enumType_inverts.natural e, trivial⟩
    | _ => trivial
  · intro type
    cases type <;> nofun
  · intro levels type deep
    cases type with
    | «enum» e =>
        -- The only type with parts: an object with the word as its only key.
        obtain ⟨inner, rfl⟩ : ∃ inner, levels = inner + 1 := ⟨levels - 1, by omega⟩
        have read := enumType_inverts.takes inner e (by omega)
        have key : typeKey (.text (.ok "enum")) = .ok "enum" := by rfl
        have composed : plainType? "enum" = none := by decide
        simp only [FieldType.toJson, Json.tree, Json.memberTrees, fieldType, Tree.enter, bind,
          Except.bind, key, composed, read]
        rfl
    | boolean => exact fieldType_word levels _ _ (by decide) (by decide)
    | integer kind => cases kind <;> exact fieldType_word levels _ _ (by decide) (by decide)
    | float kind => cases kind <;> exact fieldType_word levels _ _ (by decide) (by decide)
    | decimal => exact fieldType_word levels _ _ (by decide) (by decide)
    | string => exact fieldType_word levels _ _ (by decide) (by decide)

end Types

section Models

theorem customization_inverts : Inverts customization Customization.toJson 2 := by
  apply record_inverts (by decide)
  intro levels c deep
  refine ⟨("namespace", .string c.namespaceUri) :: ("tag", .string c.tag) ::
    (memberUnless c.attributes.isEmpty "attributes" (Attributes.toJson c.attributes) ++
      (optionalMember "location" Location.toJson c.location ++
        (memberUnless (!c.acknowledged) "acknowledged" (.bool c.acknowledged) ++ []))),
    (c.namespaceUri, c.tag, c.attributes, c.location, c.acknowledged, ()),
    by simp [Customization.toJson], rfl, ?_⟩
  have bare : c.attributes.isEmpty = true → c.attributes = SortedMap.empty := fun none =>
    SortedMap.ext_entries (List.isEmpty_iff.mp none)
  have unflagged : (!c.acknowledged) = true → c.acknowledged = false := by simp
  exact .required string_inverts (Nat.zero_le levels) _ c.namespaceUri
    (.required string_inverts (Nat.zero_le levels) _ c.tag
      (.spared map_inverts deep _ c.attributes SortedMap.empty _ bare
        (.optional location_inverts deep _ c.location
          (.spared bool_inverts (Nat.zero_le levels) _ c.acknowledged false _ unflagged .nil))))

theorem declaration_inverts : Inverts declaration Declaration.toJson 5 := by
  apply record_inverts (by decide)
  intro levels d deep
  refine ⟨("ty", d.type.toJson) ::
      (optionalMember "initializer" Literal.toJson d.initializer ++ []),
    (d.type, d.initializer, ()), by simp [Declaration.toJson], rfl, ?_⟩
  exact .required fieldType_inverts deep _ d.type
    (.optional literal_inverts (by omega) _ d.initializer .nil)

theorem field_inverts : Inverts field Field.toJson 6 := by
  apply record_inverts (by decide)
  intro levels f deep
  refine ⟨("name", .string f.name) :: ("property", f.property.toJson) ::
    (memberUnless f.customizations.isEmpty "customizations"
        (.array (f.customizations.map Customization.toJson)) ++
      (optionalMember "location" Location.toJson f.location ++
        (optionalMember "declaration" Declaration.toJson f.declaration ++ []))),
    (f.name, f.property, f.customizations, f.location, f.declaration, ()),
    by simp [Field.toJson], rfl, ?_⟩
  exact .required string_inverts (Nat.zero_le levels) _ f.name
    (.defaulted property_inverts (by omega) _ f.property .other
      (.spared customization_inverts.list (by omega) _ f.customizations [] _ List.isEmpty_iff.mp
        (.optional location_inverts (by omega) _ f.location
          (.optional declaration_inverts deep _ f.declaration .nil))))

theorem generatedClass_inverts : Inverts generatedClass GeneratedClass.toJson 8 := by
  apply record_inverts (by decide)
  intro levels c deep
  refine ⟨_, (c.name, c.location, c.fields, ()), rfl, rfl, ?_⟩
  exact .required string_inverts (Nat.zero_le levels) _ c.name
    (.optional location_inverts (by omega) _ c.location
      (.defaulted field_inverts.list deep _ c.fields [] .nil))

theorem document_inverts : Inverts document Document.toJson 10 := by
  apply record_inverts (by decide)
  intro levels d deep
  refine ⟨_, (d.classes, ()), rfl, rfl, ?_⟩
  exact .required generatedClass_inverts.list deep _ d.classes .nil

end Models

end Decoding

/-- Blanks behind a written value are no part of it. -/
theorem Reader.Inverts.ofText_written {α : Type} {read : Reader α} {encode : α → Json}
    {depth : Nat} (inverts : read.Inverts encode depth) (shallow : depth ≤ Tree.depthLimit)
    (pretty : Bool) (value : α) (blanks : String)
    (blank : ∀ c ∈ blanks.toList, Token.isBlank c = true) :
    read.ofText ((encode value).text pretty ++ blanks) = .ok value := by
  have built := Tree.ofText_written pretty (encode value) (inverts.natural value) blanks.toList
    blank
  have taken := inverts.takes Tree.depthLimit value shallow
  simp only [ofText, String.toList_append, built, bind, Except.bind, taken]
  rfl

namespace Document

theorem ofText_blanks (pretty : Bool) (d : Document) (blanks : String)
    (blank : ∀ c ∈ blanks.toList, Token.isBlank c = true) :
    ofText (d.text pretty ++ blanks) = .ok d :=
  Decoding.document_inverts.ofText_written (by decide) pretty d blanks blank

theorem ofText_fileText (pretty : Bool) (d : Document) : ofText (d.fileText pretty) = .ok d :=
  d.ofText_blanks pretty "\n" (List.all_eq_true.mp rfl)

/-- A document is read back from its text, in either layout, with and without the end of the
last line. -/
theorem text_read_back (pretty : Bool) (d : Document) :
    ofText (d.text pretty) = .ok d ∧ ofText (d.fileText pretty) = .ok d := by
  refine ⟨?_, d.ofText_fileText pretty⟩
  have plain := d.ofText_blanks pretty "" (List.all_eq_true.mp rfl)
  rwa [String.append_empty] at plain

end Document

end SchemaDefaults
