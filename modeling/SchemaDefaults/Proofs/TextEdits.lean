import SchemaDefaults.Settings.File
/-!
Other texts in the same tables. An edit gives every text of a table another one, by the address
where it stands. No rule by which tables grow asks for the text of a value, so that it comes to
the same whether values are edited before they are laid into a table or with it, and the settings
that are taken from the edited table are the edited ones.
-/

namespace SchemaDefaults

namespace Toml

section Edits

inductive Branch where
  | key (name : String)
  | item (index : Nat)
deriving DecidableEq, Repr

/-- The way from the root to a value. All tables of a series have the address of the series. -/
abbrev Address := List Branch

def pathAddress (path : List String) : Address := path.map .key

def KeyPath.address (keys : KeyPath) : Address := pathAddress keys.path ++ [.key keys.key]

/-- A new text for the text at an address. -/
abbrev Edit := Address → String → String

mutual

def Value.edited (edit : Edit) (address : Address) : Value → Value
  | .bool value => .bool value
  | .text value => .text (edit address value)
  | .number readable => .number readable
  | .moment => .moment
  | .array items => .array (editedItems edit address 0 items)
  | .table table => .table (table.edited edit address)
  | .series earlier last => .series (editedTables edit address earlier) (last.edited edit address)

def Table.edited (edit : Edit) (address : Address) : Table → Table
  | .mk kind members => .mk kind (editedMembers edit address members)

def editedItems (edit : Edit) (address : Address) (index : Nat) : List Value → List Value
  | [] => []
  | item :: rest =>
    item.edited edit (address ++ [.item index]) :: editedItems edit address (index + 1) rest

def editedTables (edit : Edit) (address : Address) : List Table → List Table
  | [] => []
  | table :: rest => table.edited edit address :: editedTables edit address rest

def editedMembers (edit : Edit) (address : Address) :
    List (String × Value) → List (String × Value)
  | [] => []
  | member :: rest =>
    (member.1, member.2.edited edit (address ++ [.key member.1])) ::
      editedMembers edit address rest

end

end Edits

variable (edit : Edit)

section Members

theorem editedMembers_eq (address : Address) (members : List (String × Value)) :
    editedMembers edit address members =
      members.map fun member => (member.1, member.2.edited edit (address ++ [.key member.1])) := by
  induction members with
  | nil => rfl
  | cons member rest ih => exact congrArg (_ :: ·) ih

theorem editedTables_eq (address : Address) (tables : List Table) :
    editedTables edit address tables = tables.map (·.edited edit address) := by
  induction tables with
  | nil => rfl
  | cons table rest ih => exact congrArg (_ :: ·) ih

namespace Table

variable (address : Address) (table : Table)

theorem members_edited : (table.edited edit address).members =
    table.members.map fun member =>
      (member.1, member.2.edited edit (address ++ [.key member.1])) := by
  cases table
  exact editedMembers_eq edit address _

theorem kind_edited : (table.edited edit address).kind = table.kind := by
  cases table
  rfl

theorem admits_edited (made : TableKind) :
    (table.edited edit address).admits made = table.admits made := by
  unfold admits
  rw [kind_edited]

theorem withKind_edited (kind : TableKind) :
    (table.withKind kind).edited edit address = (table.edited edit address).withKind kind := by
  cases table
  rfl

theorem empty_edited (kind : TableKind) : (empty kind).edited edit address = empty kind :=
  rfl

theorem get?_edited (key : String) : (table.edited edit address).get? key =
    (table.get? key).map (·.edited edit (address ++ [.key key])) := by
  unfold get?
  rw [members_edited]
  induction table.members with
  | nil => rfl
  | cons member rest ih =>
      obtain ⟨name, value⟩ := member
      by_cases same : key = name
      · subst same
        simp
      · have other : (key == name) = false := beq_false_of_ne same
        simp only [List.map_cons, List.lookup_cons, other, ih]

theorem append_edited (key : String) (value : Value) :
    (table.append key value).edited edit address =
      (table.edited edit address).append key (value.edited edit (address ++ [.key key])) := by
  cases table
  simp [append, edited, kind, members, editedMembers_eq]

theorem replace_edited (key : String) (value : Value) :
    (table.replace key value).edited edit address =
      (table.edited edit address).replace key (value.edited edit (address ++ [.key key])) := by
  cases table with
  | mk kind members =>
      simp only [replace, edited, Table.kind, Table.members, editedMembers_eq, List.map_map,
        mk.injEq, true_and]
      apply List.map_congr_left
      intro member _
      by_cases same : member.1 = key <;> simp [same]

end Table

end Members

section Growth

namespace Table

/-- A change that goes with edits, at an address. -/
def Follows (address : Address) (changed change : Table → Option Table) : Prop :=
  ∀ table, changed (table.edited edit address) = (change table).map (·.edited edit address)

theorem update_edited (made : TableKind) (changed change : Table → Option Table)
    (path : List String) (address : Address)
    (follows : Follows edit (address ++ pathAddress path) changed change) :
    Follows edit address (update made changed path) (update made change path) := by
  -- Each key of the path is a step of the address, so the address has to vary with it.
  induction path generalizing address with
  | nil =>
      rw [pathAddress, List.map_nil, List.append_nil] at follows
      exact follows
  | cons key path ih =>
      intro table
      have below (child : Table) :
          update made changed path (child.edited edit (address ++ [.key key])) =
            (update made change path child).map (·.edited edit (address ++ [.key key])) := by
        apply ih
        rw [List.append_assoc]
        exact follows
      simp only [update, get?_edited]
      cases table.get? key with
      | none =>
          have fresh := below (empty made)
          rw [empty_edited] at fresh
          simp only [Option.map_none, fresh, Option.map_map, Function.comp_def, append_edited,
            Value.edited]
      | some value =>
          cases value with
          | table child =>
              simp only [Option.map_some, Value.edited, admits_edited, below]
              split
              · simp only [Option.map_map, Function.comp_def, replace_edited, Value.edited]
              · rfl
          | series earlier last =>
              simp only [Option.map_some, Value.edited, below, Option.map_map, Function.comp_def,
                replace_edited]
          | bool | text | number | moment | array => rfl

theorem addMember_edited (address : Address) (key : String) (value : Value) :
    Follows edit address
      (addMember key (value.edited edit (address ++ [.key key]))) (addMember key value) := by
  intro table
  unfold addMember
  rw [get?_edited]
  cases table.get? key with
  | none => simp only [Option.map_none, Option.map_some, append_edited]
  | some value => rfl

theorem addPair_edited (address : Address) (keys : KeyPath) (value : Value) :
    Follows edit address
      (addPair keys.path keys.key (value.edited edit (address ++ keys.address)))
      (addPair keys.path keys.key value) := by
  apply update_edited
  intro parent
  simp only [kind_edited]
  split
  · rw [KeyPath.address, ← List.append_assoc]
    exact addMember_edited edit _ keys.key value parent
  · rfl

theorem openTable_edited (address : Address) (key : String) (filled fill : Table → Option Table)
    (follows : Follows edit (address ++ [.key key]) filled fill) :
    Follows edit address (openTable key filled) (openTable key fill) := by
  intro parent
  unfold openTable
  rw [get?_edited]
  cases parent.get? key with
  | none =>
      have fresh := follows (empty .headed)
      rw [empty_edited] at fresh
      simp only [Option.map_none, fresh, Option.map_map, Function.comp_def, append_edited,
        Value.edited]
  | some value =>
      cases value with
      | table child =>
          have headed := follows (child.withKind .headed)
          rw [withKind_edited] at headed
          simp only [Option.map_some, Value.edited, kind_edited, headed]
          split
          · simp only [Option.map_map, Function.comp_def, replace_edited, Value.edited]
          · rfl
      | bool | text | number | moment | array | series => rfl

theorem openNext_edited (address : Address) (key : String) (filled fill : Table → Option Table)
    (follows : Follows edit (address ++ [.key key]) filled fill) :
    Follows edit address (openNext key filled) (openNext key fill) := by
  intro parent
  have fresh := follows (empty .headed)
  rw [empty_edited] at fresh
  unfold openNext
  rw [get?_edited]
  cases parent.get? key with
  | none =>
      simp only [Option.map_none, fresh, Option.map_map, Function.comp_def, append_edited,
        Value.edited]
      rfl
  | some value =>
      cases value with
      | series earlier last =>
          simp only [Option.map_some, Value.edited, fresh, Option.map_map, Function.comp_def,
            replace_edited, editedTables_eq, List.map_append, List.map_cons, List.map_nil]
      | bool | text | number | moment | array | table => rfl

theorem follows_foldlM {α : Type} (address : Address) (changed change : α → Table → Option Table)
    (items : List α)
    (follows : ∀ item ∈ items, Follows edit address (changed item) (change item)) :
    Follows edit address (fun table => items.foldlM (fun table item => changed item table) table)
      fun table => items.foldlM (fun table item => change item table) table := by
  induction items with
  | nil => exact fun _ => rfl
  | cons item rest ih =>
      intro table
      have later := ih fun other member => follows other (List.mem_cons_of_mem _ member)
      have here := follows item List.mem_cons_self table
      simp only [List.foldlM_cons, here]
      cases change item table with
      | none => rfl
      | some grown => exact later grown

end Table

end Growth

section Roots

def Header.keys : Header → KeyPath
  | table keys | next keys => keys

/-- The pairs stand in the table at the address. -/
def editedPairs (address : Address) (pairs : List Pair) : List Pair :=
  pairs.map fun pair => (pair.1, pair.2.edited edit (address ++ pair.1.address))

def editedSection (part : Header × List Pair) : Header × List Pair :=
  (part.1, editedPairs edit part.1.keys.address part.2)

/-- The first lines stand in the table at the address, those behind a header in that of the
header. -/
def editedLines (address : Address) : List Line → List Line
  | [] => []
  | .pair keys value :: rest =>
    .pair keys (value.edited edit (address ++ keys.address)) :: editedLines address rest
  | .header keys :: rest => .header keys :: editedLines keys.address rest
  | .nextHeader keys :: rest => .nextHeader keys :: editedLines keys.address rest

theorem sections_edited (address : Address) (lines : List Line) :
    sections (editedLines edit address lines) =
      (editedPairs edit address (sections lines).1,
        (sections lines).2.map (editedSection edit)) := by
  induction lines generalizing address with
  | nil => rfl
  | cons line rest ih =>
      cases line <;> simp only [editedLines, sections, ih] <;> rfl

namespace Table

theorem addPairs_edited (address : Address) (pairs : List Pair) :
    Follows edit address (addPairs (editedPairs edit address pairs)) (addPairs pairs) := by
  intro table
  unfold addPairs editedPairs
  rw [List.foldlM_map]
  exact follows_foldlM edit address
    (fun pair => addPair pair.1.path pair.1.key (pair.2.edited edit (address ++ pair.1.address)))
    (fun pair => addPair pair.1.path pair.1.key pair.2) pairs
    (fun pair _ => addPair_edited edit address pair.1 pair.2) table

theorem addSection_edited (part : Header × List Pair) :
    Follows edit [] (fun table => table.addSection (editedSection edit part))
      (fun table => table.addSection part) := by
  obtain ⟨header, pairs⟩ := part
  cases header with
  | table keys =>
      apply update_edited
      exact openTable_edited edit _ keys.key _ _ (addPairs_edited edit keys.address pairs)
  | next keys =>
      apply update_edited
      exact openNext_edited edit _ keys.key _ _ (addPairs_edited edit keys.address pairs)

theorem ofLines?_edited (lines : List Line) :
    ofLines? (editedLines edit [] lines) = (ofLines? lines).map (·.edited edit []) := by
  unfold ofLines?
  rw [sections_edited]
  have first := addPairs_edited edit [] (sections lines).1 (empty .headed)
  have later := follows_foldlM edit []
    (fun part table => table.addSection (editedSection edit part))
    (fun part table => table.addSection part) (sections lines).2
    (fun part _ => addSection_edited edit part)
  rw [empty_edited] at first
  dsimp only
  rw [first]
  cases addPairs (sections lines).1 (empty .headed) with
  | none => rfl
  | some root =>
      simp only [Option.map_some, Option.bind_eq_bind, Option.bind_some, List.foldlM_map]
      exact later root

end Table

end Roots

section Readability

mutual

theorem Value.readable_edited (address : Address) (value : Value) :
    (value.edited edit address).readable = value.readable := by
  cases value with
  | bool | text | number | moment => rfl
  | array items => exact readableItems_edited address 0 items
  | table table => exact Table.readable_edited address table
  | series earlier last =>
      simp only [Value.edited, Value.readable, readableTables_edited address earlier,
        Table.readable_edited address last]

theorem Table.readable_edited (address : Address) (table : Table) :
    (table.edited edit address).readable = table.readable := by
  cases table with
  | mk kind members => exact readableMembers_edited address members

theorem readableItems_edited (address : Address) (index : Nat) (items : List Value) :
    readableItems (editedItems edit address index items) = readableItems items := by
  cases items with
  | nil => rfl
  | cons item rest =>
      simp only [editedItems, readableItems, Value.readable_edited _ item,
        readableItems_edited address (index + 1) rest]

theorem readableTables_edited (address : Address) (tables : List Table) :
    readableTables (editedTables edit address tables) = readableTables tables := by
  cases tables with
  | nil => rfl
  | cons table rest =>
      simp only [editedTables, readableTables, Table.readable_edited address table,
        readableTables_edited address rest]

theorem readableMembers_edited (address : Address) (members : List (String × Value)) :
    readableMembers (editedMembers edit address members) = readableMembers members := by
  cases members with
  | nil => rfl
  | cons member rest =>
      simp only [editedMembers, readableMembers, Value.readable_edited _ member.2,
        readableMembers_edited address rest]

end

end Readability

end Toml

section Settings

open Toml

variable (edit : Edit)

namespace SettingsFile

theorem othersReadable_edited (known : List String) (address : Address) (table : Table) :
    othersReadable known (table.edited edit address) = othersReadable known table := by
  unfold othersReadable
  rw [Table.members_edited, List.filter_map, List.all_map]
  simp only [Function.comp_def, Value.readable_edited]

theorem editedItems_length (address : Address) (index : Nat) (items : List Value) :
    (editedItems edit address index items).length = items.length := by
  induction items generalizing index with
  | nil => rfl
  | cons item rest ih => exact congrArg (· + 1) (ih (index + 1))

theorem lookup_editedItems (address : Address) (known : List String) (index : Nat)
    (items : List Value) (member : String) :
    (known.zip (editedItems edit address index items)).lookup member =
      ((known.zip items).lookup member).map
        (·.edited edit (address ++ [.item (index + known.idxOf member)])) := by
  induction known generalizing index items with
  | nil => rfl
  | cons name known ih =>
      cases items with
      | nil => rfl
      | cons item rest =>
          simp only [editedItems, List.zip_cons_cons]
          by_cases same : member = name
          · subst same
            simp
          · have other : (member == name) = false := beq_false_of_ne same
            have apart : (name == member) = false := beq_false_of_ne (Ne.symm same)
            simp only [List.lookup_cons, other, ih, List.idxOf_cons, apart, cond_false,
              Nat.add_assoc, Nat.add_comm 1]

/-- The way from a section to its members: their names in a table, and their numbers in an
array. -/
def Steps (known : List String) (step : String → Branch) : Prop :=
  step = .key ∨ step = fun member => .item (known.idxOf member)

theorem membersOf?_edited (known : List String) (address : Address) (value : Value) :
    ∃ step, Steps known step ∧
      membersOf? known (value.edited edit address) =
        (membersOf? known value).map fun lookup member =>
          (lookup member).map (·.edited edit (address ++ [step member])) := by
  cases value with
  | bool | text | number | series => exact ⟨_, .inl rfl, rfl⟩
  | moment => exact ⟨_, .inl rfl, rfl⟩
  | table table =>
      refine ⟨_, .inl rfl, ?_⟩
      simp only [Value.edited, membersOf?, othersReadable_edited]
      split
      · exact congrArg some (funext (table.get?_edited edit address))
      · rfl
  | array items =>
      refine ⟨_, .inr rfl, ?_⟩
      simp only [Value.edited, membersOf?, editedItems_length]
      split
      · refine congrArg some (funext fun member => ?_)
        rw [lookup_editedItems, Nat.zero_add]
      · rfl

theorem section?_edited (root : Table) (name : String) (known : List String) :
    ∃ step, Steps known step ∧ section? (root.edited edit []) name known =
      (section? root name known).map fun lookup member =>
        (lookup member).map (·.edited edit [.key name, step member]) := by
  unfold section?
  rw [Table.get?_edited]
  cases root.get? name with
  | none => exact ⟨_, .inl rfl, rfl⟩
  | some value => exact membersOf?_edited edit known [.key name] value

theorem switch?_edited (address : Address) (value : Option Value) :
    switch? (value.map (·.edited edit address)) = switch? value := by
  rcases value with _ | (_ | _ | _ | _ | _ | _ | _) <;> rfl

theorem word?_edited (address : Address) (value : Option Value) :
    word? (value.map (·.edited edit address)) = (word? value).map (Option.map (edit address)) := by
  rcases value with _ | (_ | _ | _ | _ | _ | _ | _) <;> rfl

theorem bind_follows {α β γ δ : Type} {change : α → β} {plain : α → Option γ}
    {edited : β → Option δ} {after : γ → δ} (found : Option α)
    (each : ∀ value, edited (change value) = (plain value).map after) :
    (found.map change >>= edited) = (found >>= plain).map after := by
  cases found with
  | none => rfl
  | some value => exact each value

theorem bind_kept {α γ δ : Type} {plain : α → Option γ} {edited : α → Option δ} {after : γ → δ}
    (found : Option α) (each : ∀ value, edited value = (plain value).map after) :
    (found >>= edited) = (found >>= plain).map after := by
  cases found with
  | none => rfl
  | some value => exact each value

/-- An edit of two settings, whether their sections are tables or arrays. -/
structure Gives (edit : Edit) (model output : String → String) : Prop where
  policy : edit [.key "pass", .key "policy"] = id ∧ edit [.key "pass", .item 1] = id
  model : edit [.key "input", .key "model"] = model ∧ edit [.key "input", .item 0] = model
  output : edit [.key "output", .key "path"] = output ∧ edit [.key "output", .item 0] = output

theorem ofTable?_edited (model output : String → String) (gives : Gives edit model output)
    (root : Table) :
    ofTable? (root.edited edit []) = (ofTable? root).map fun file =>
      { file with model := file.model.map model, output := file.output.map output } := by
  obtain ⟨inPass, passSteps, pass⟩ := section?_edited edit root "pass" ["enabled", "policy"]
  obtain ⟨inInput, inputSteps, input⟩ := section?_edited edit root "input" ["model"]
  obtain ⟨inOutput, outputSteps, out⟩ := section?_edited edit root "output" ["path", "pretty"]
  obtain ⟨_, _, logging⟩ := section?_edited edit root "logging" ["verbose", "json"]
  have policyText : edit [.key "pass", inPass "policy"] = id := by
    rcases passSteps with rfl | rfl
    · exact gives.policy.1
    · exact gives.policy.2
  have modelText : edit [.key "input", inInput "model"] = model := by
    rcases inputSteps with rfl | rfl
    · exact gives.model.1
    · exact gives.model.2
  have outputText : edit [.key "output", inOutput "path"] = output := by
    rcases outputSteps with rfl | rfl
    · exact gives.output.1
    · exact gives.output.2
  rw [ofTable?, ofTable?, pass, input, out, logging, othersReadable_edited]
  refine bind_follows _ fun passed => ?_
  refine bind_follows _ fun given => ?_
  refine bind_follows _ fun target => ?_
  refine bind_follows _ fun noted => ?_
  split
  · rfl
  · simp only [switch?_edited, word?_edited, policyText, modelText, outputText]
    refine bind_kept _ fun enabled => ?_
    refine bind_follows _ fun policy => ?_
    refine bind_follows _ fun path => ?_
    refine bind_follows _ fun place => ?_
    refine bind_kept _ fun pretty => ?_
    refine bind_kept _ fun verbose => ?_
    refine bind_kept _ fun jsonLogs => ?_
    rw [Option.map_id]
    rfl

end SettingsFile
end Settings

end SchemaDefaults
