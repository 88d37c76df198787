import Mathlib.Algebra.Group.Int.Defs
import SchemaDefaults.Extraction
import SchemaDefaults.Proofs.Words
/-!
Types of literals. What a schema text is converted to is a literal of the declared type, and so is
what either policy extracts from a field.
-/

namespace SchemaDefaults

section Types

/-- One bit of a bounded kind is for the sign. -/
def IntegerKind.Fits (kind : IntegerKind) (value : Int) : Prop :=
  ∀ bits, kind.bits? = some bits → -2 ^ (bits - 1) ≤ value ∧ value < 2 ^ (bits - 1)

inductive Literal.HasType : Literal → FieldType → Prop where
  | bool (value : Bool) : HasType (.bool value) .boolean
  | integer (kind : IntegerKind) (digits : String)
      (canonical : Number.IsInteger digits.toList)
      (fits : kind.Fits (Number.integerValue digits.toList)) :
      HasType (.integer kind digits) (.integer kind)
  | float (kind : FloatKind) (text : String) : HasType (.float kind text) (.float kind)
  | decimal (text : String) (canonical : Number.IsDecimal text.toList) :
      HasType (.decimal text) .decimal
  | string (value : String) : HasType (.string value) .string
  | enumConstant (type : EnumType) (entry : EnumConstant)
      (declared : entry ∈ type.constants) :
      HasType (.enumConstant type.name entry.constant) (.enum type)

end Types

namespace Conversion

open Number

section Kinds

theorem boolean_typed (text : List Char) (literal : Literal)
    (converted : boolean? text = some literal) : literal.HasType .boolean := by
  unfold boolean? at converted
  split at converted
  · cases converted
    exact .bool true
  · split at converted
    · cases converted
      exact .bool false
    · cases converted

theorem inBounds_fits (kind : IntegerKind) (value : Int)
    (bounded : inBounds kind value = true) : kind.Fits value := by
  intro bits width
  simp only [inBounds, IntegerKind.bounds, width, Option.map_some, Bool.and_eq_true,
    decide_eq_true_eq] at bounded
  have half : ((Nat.pow 2 (bits - 1) : Nat) : Int) = 2 ^ (bits - 1) :=
    Int.natCast_pow 2 (bits - 1)
  omega

theorem integer_typed (kind : IntegerKind) (text : List Char) (literal : Literal)
    (converted : integer? kind text = some literal) : literal.HasType (.integer kind) := by
  rw [integer_eq] at converted
  obtain ⟨n, read, converted⟩ := Option.bind_eq_some_iff.mp converted
  have decimal := Integer.read_digits text n read
  split at converted
  · rename_i bounded
    cases converted
    refine .integer kind _ ?_ ?_
    · rw [String.toList_ofList]
      exact n.canonical_isInteger decimal
    · rw [String.toList_ofList, n.integerValue_canonical decimal]
      exact inBounds_fits kind n.value bounded
  · cases converted

theorem decimal_typed (text : List Char) (literal : Literal)
    (converted : decimal? text = some literal) : literal.HasType .decimal := by
  obtain ⟨d, read, rfl⟩ := Option.map_eq_some_iff.mp converted
  obtain ⟨whole, fraction⟩ := Decimal.read_digits text d read
  apply Literal.HasType.decimal
  rw [String.toList_ofList]
  exact d.canonical_isDecimal whole fraction

theorem float_typed (kind : FloatKind) (text : List Char) (literal : Literal)
    (converted : float? kind text = some literal) : literal.HasType (.float kind) := by
  unfold float? at converted
  split at converted
  · cases converted
    exact .float kind _
  · obtain ⟨_, _, named⟩ := Option.bind_eq_some_iff.mp converted
    obtain ⟨name, _, rfl⟩ := Option.map_eq_some_iff.mp named
    exact .float kind name

theorem enumConstant_typed (type : EnumType) (text : String) (literal : Literal)
    (converted : enumConstant? type text = some literal) : literal.HasType (.enum type) := by
  obtain ⟨entry, found, rfl⟩ := Option.map_eq_some_iff.mp converted
  exact .enumConstant type entry (List.mem_of_find?_eq_some found)

end Kinds

theorem literal_typed (lexical : String) (type : FieldType) (literal : Literal)
    (converted : literal? lexical type = some literal) : literal.HasType type := by
  cases type with
  | boolean => exact boolean_typed _ literal converted
  | integer kind => exact integer_typed kind _ literal converted
  | float kind => exact float_typed kind _ literal converted
  | decimal => exact decimal_typed _ literal converted
  | string =>
      cases converted
      exact .string lexical
  | enum type => exact enumConstant_typed type _ literal converted

end Conversion

section Extraction

theorem convert_typed (lexical : String) (type : FieldType) (literal : Literal)
    (converted : convert lexical type = .ok literal) : literal.HasType type := by
  unfold convert at converted
  split at converted
  · rename_i found
    cases converted
    exact Conversion.literal_typed lexical type literal found
  · cases converted

namespace Extraction

theorem fromText_typed (lexical : String) (type : FieldType) (literal : Literal)
    (extracted : fromText lexical type = .ok literal) : literal.HasType type := by
  unfold fromText at extracted
  split at extracted
  · rename_i converted
    cases extracted
    exact convert_typed lexical type literal converted
  · cases extracted

theorem fromSchema_typed (f : Field) (literal : Literal)
    (extracted : fromSchema f = .ok literal) :
    ∃ type, f.type? = some type ∧ literal.HasType type := by
  unfold fromSchema at extracted
  split at extracted
  · rename_i declared
    exact ⟨_, declared, fromText_typed _ _ literal extracted⟩
  all_goals cases extracted

theorem fromMarker_typed (f : Field) (marker : Customization) (literal : Literal)
    (extracted : fromMarker f marker = .ok literal) :
    ∃ type, f.type? = some type ∧ literal.HasType type := by
  unfold fromMarker at extracted
  split at extracted
  · rename_i declared _
    exact ⟨_, declared, fromText_typed _ _ literal extracted⟩
  all_goals cases extracted

/-- The policies differ in the text that they read, not in the type that they read it for. -/
theorem extract_typed (policy : Policy) (f : Field) (marker : Customization)
    (literal : Literal) (extracted : extract policy f marker = .ok literal) :
    ∃ type, f.type? = some type ∧ literal.HasType type := by
  simp only [extract] at extracted
  split at extracted
  · rename_i found
    cases extracted
    cases policy with
    | schemaDefault => exact fromSchema_typed f literal found
    | annotationLiteral => exact fromMarker_typed f marker literal found
  · cases extracted

end Extraction

end Extraction

end SchemaDefaults
