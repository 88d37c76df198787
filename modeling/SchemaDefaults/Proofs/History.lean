import SchemaDefaults.Proofs.Marking
import SchemaDefaults.Proofs.RunResult
/-!
Histories. Between reading a model and writing it, a host may run the pass any number of times,
by either policy and over any sinks, and may acknowledge customizations in between. All that
counts in the end is the order of the runs and which customizations have been named: runs and
acknowledgements write to different parts of a field, and neither reads what it writes.
-/

namespace SchemaDefaults

section Operations

inductive Operation where
  | run {σ : Type} (channel : Sink σ) (sink : σ) (policy : Policy)
  | acknowledge (ids : IdSet)

namespace Operation

/-- The model behind an operation, if the operation has succeeded. -/
def perform? (classes : List GeneratedClass) : Operation → Option (List GeneratedClass)
  | run channel sink policy =>
    let done := Pass.run channel ⟨true, policy⟩ classes sink
    match done.result with
    | .ok _ => some done.classes
    | .error _ => none
  | acknowledge ids => some (Acknowledgement.acknowledge ids classes).1

def policy? : Operation → Option Policy
  | run _ _ policy => some policy
  | acknowledge _ => none

def names (id : CustomizationId) : Operation → Bool
  | run _ _ _ => false
  | acknowledge ids => ids.contains id

def policies (operations : List Operation) : List Policy := operations.filterMap policy?

/-- Whether a customization is in one of the acknowledged sets. -/
def named (operations : List Operation) (id : CustomizationId) : Bool :=
  operations.any (·.names id)

end Operation

/-- The model behind a history, if each of its operations has succeeded. -/
def history : List Operation → List GeneratedClass → Option (List GeneratedClass)
  | [], classes => some classes
  | operation :: rest, classes =>
    match operation.perform? classes with
    | none => none
    | some next => history rest next

end Operations

section Revision

namespace Field

def literal? (policy : Policy) (f : Field) : Option Literal :=
  match f.extracted? policy with
  | some (.ok literal) => some literal
  | _ => none

/-- The literal of the last policy by which there is one. -/
def lastLiteral? (policies : List Policy) (f : Field) : Option Literal :=
  (policies.filterMap fun policy => f.literal? policy).getLast?

/-- Sets that literal; without one, the initializer stays. -/
def reinitialized (policies : List Policy) (f : Field) : Field :=
  { f with
    declaration := f.declaration.map fun declaration =>
      { declaration with initializer := f.lastLiteral? policies <|> declaration.initializer } }

def revised (policies : List Policy) (picked : CustomizationId → Bool) (className : String)
    (f : Field) : Field :=
  (f.reinitialized policies).marked picked className

variable (policies : List Policy) (picked : CustomizationId → Bool) (className : String)

theorem lastLiteral_concat (policy : Policy) (f : Field) :
    f.lastLiteral? (policies ++ [policy]) = (f.literal? policy <|> f.lastLiteral? policies) := by
  cases literal : f.literal? policy <;> simp [lastLiteral?, List.filterMap_append, literal]

theorem lastLiteral_repeated (policy : Policy) (f : Field)
    (last : policies.getLast? = some policy) :
    f.lastLiteral? (policies ++ [policy]) = f.lastLiteral? policies := by
  obtain ⟨earlier, ended⟩ := List.getLast?_eq_some_iff.mp last
  rw [ended, lastLiteral_concat, lastLiteral_concat]
  cases f.literal? policy <;> rfl

theorem bare_reinitialized (f : Field) : (f.reinitialized policies).bare = f.bare := by
  cases declared : f.declaration <;> simp [reinitialized, bare, declared]

theorem extracted_reinitialized (policy : Policy) (f : Field) :
    (f.reinitialized policies).extracted? policy = f.extracted? policy := by
  rw [← extracted_bare, bare_reinitialized, extracted_bare]

/-- One more run writes over the initializer if it has a literal, and leaves it otherwise. -/
theorem settled_reinitialized (policy : Policy) (f : Field) :
    (f.reinitialized policies).settled policy = f.reinitialized (policies ++ [policy]) := by
  have read := f.extracted_reinitialized policies policy
  have last := f.lastLiteral_concat policies policy
  cases found : f.literal? policy with
  | none =>
      have unsettled : (f.reinitialized policies).settled policy = f.reinitialized policies := by
        unfold literal? at found
        unfold settled
        rw [read]
        split at found <;> simp_all
      rw [unsettled, reinitialized, reinitialized, last, found]
      rfl
  | some literal =>
      have extracted : f.extracted? policy = some (.ok literal) := by
        unfold literal? at found
        split at found <;> simp_all
      rw [settled_extracted policy _ literal (read.trans extracted), reinitialized, reinitialized,
        last, found]
      cases f.declaration <;> simp [inject]

theorem settled_marked (policy : Policy) (f : Field) :
    (f.marked picked className).settled policy = (f.settled policy).marked picked className := by
  unfold settled
  rw [extracted_marked]
  split
  · exact marked_inject picked className f _
  · rfl

theorem settled_revised (policy : Policy) (f : Field) :
    (f.revised policies picked className).settled policy =
      f.revised (policies ++ [policy]) picked className := by
  rw [revised, settled_marked, settled_reinitialized]
  rfl

theorem revised_repeated (policy : Policy) (f : Field)
    (last : policies.getLast? = some policy) :
    f.revised (policies ++ [policy]) picked className = f.revised policies picked className := by
  rw [revised, revised, reinitialized, reinitialized, f.lastLiteral_repeated policies policy last]

theorem marked_revised (more : CustomizationId → Bool) (f : Field) :
    (f.revised policies picked className).marked more className =
      f.revised policies (fun id => picked id || more id) className := by
  exact marked_marked picked more className (f.reinitialized policies)

theorem revised_start (f : Field) : f.revised [] (fun _ => false) className = f := by
  have untouched (declaration : Declaration) :
      { declaration with initializer := f.lastLiteral? [] <|> declaration.initializer } =
        declaration := rfl
  have initial : f.reinitialized [] = f := by
    simp only [reinitialized, untouched, Option.map_id']
  rw [revised, initial, marked_nothing]

end Field

def GeneratedClass.revised (policies : List Policy) (picked : CustomizationId → Bool)
    (c : GeneratedClass) : GeneratedClass :=
  { c with fields := c.fields.map (·.revised policies picked c.name) }

theorem GeneratedClass.revised_start (c : GeneratedClass) :
    c.revised [] (fun _ => false) = c := by
  simp [revised, Field.revised_start]

theorem GeneratedClass.settled_revised (policies : List Policy)
    (picked : CustomizationId → Bool) (policy : Policy) (c : GeneratedClass) :
    (c.revised policies picked).settled policy = c.revised (policies ++ [policy]) picked := by
  simp [revised, settled, Field.settled_revised]

theorem GeneratedClass.revised_repeated (policies : List Policy)
    (picked : CustomizationId → Bool) (policy : Policy) (c : GeneratedClass)
    (last : policies.getLast? = some policy) :
    c.revised (policies ++ [policy]) picked = c.revised policies picked := by
  simp only [revised, Field.revised_repeated policies picked c.name policy _ last]

theorem GeneratedClass.marked_revised (policies : List Policy)
    (picked more : CustomizationId → Bool) (c : GeneratedClass) :
    (c.revised policies picked).marked more =
      c.revised policies fun id => picked id || more id := by
  simp [revised, marked, Field.marked_revised]

end Revision

section Histories

theorem Operation.perform_revised (policies : List Policy) (picked : CustomizationId → Bool)
    (operation : Operation) (classes next : List GeneratedClass)
    (applied : operation.perform? (classes.map (·.revised policies picked)) = some next) :
    next = classes.map
      (·.revised (policies ++ operation.policy?.toList) fun id =>
        picked id || operation.names id) := by
  cases operation with
  | run channel sink policy =>
      cases answered : (Pass.run channel ⟨true, policy⟩
          (classes.map (·.revised policies picked)) sink).result with
      | error failure => simp [perform?, answered] at applied
      | ok report =>
          simp only [perform?, answered, Option.some.injEq] at applied
          have passed := ((Pass.run_ok_iff channel policy _ sink report).mp answered).1
          rw [← applied, (Pass.run_passed channel policy _ sink passed).1]
          simp [policy?, names, GeneratedClass.settled_revised]
  | acknowledge ids =>
      simp only [perform?, Option.some.injEq] at applied
      rw [← applied, Acknowledgement.acknowledge_marked]
      simp [policy?, names, GeneratedClass.marked_revised]

theorem history_revised (operations : List Operation) (policies : List Policy)
    (picked : CustomizationId → Bool) (classes after : List GeneratedClass)
    (completed : history operations (classes.map (·.revised policies picked)) = some after) :
    after = classes.map
      (·.revised (policies ++ Operation.policies operations) fun id =>
        picked id || Operation.named operations id) := by
  induction operations generalizing policies picked with
  | nil =>
      simp only [history, Option.some.injEq] at completed
      simp [← completed, Operation.policies, Operation.named]
  | cons operation rest ih =>
      cases applied : operation.perform? (classes.map (·.revised policies picked)) with
      | none => simp [history, applied] at completed
      | some next =>
          have step := operation.perform_revised policies picked classes next applied
          simp only [history, applied, step] at completed
          rw [ih _ _ completed]
          have runs : Operation.policies (operation :: rest) =
              operation.policy?.toList ++ Operation.policies rest := by
            cases first : operation.policy? <;> simp [Operation.policies, first]
          simp only [runs, Operation.named, List.any_cons, List.append_assoc, Bool.or_assoc]

/-- The model behind a history is a function of the one before it, of the order of its policies
and of the customizations that it names: an initializer is the last literal that could be
extracted from the field as it was at the start, and a customization is acknowledged if it was so
before or has been named. One more run by the last policy changes nothing, and a run and an
acknowledgement can change places without a difference to the model, to the run's report or to
what its sink is sent. -/
theorem history_determined (operations : List Operation) (classes after : List GeneratedClass)
    (completed : history operations classes = some after) :
    after = classes.map (fun c => { c with
      fields := c.fields.map fun f => { f with
        customizations := f.customizations.mapIdx fun ordinal customization =>
          { customization with
            acknowledged := customization.acknowledged ||
              Operation.named operations ⟨c.name, f.name, ordinal⟩ }
        declaration := f.declaration.map fun declaration =>
          { declaration with
            initializer := ((Operation.policies operations).filterMap fun policy =>
              f.literal? policy).getLast? <|> declaration.initializer } } }) ∧
      (∀ others result, history others classes = some result →
        Operation.policies others = Operation.policies operations →
        (∀ id, Operation.named others id = Operation.named operations id) → result = after) ∧
      (∀ (policy : Policy), (Operation.policies operations).getLast? = some policy →
        ∀ {σ : Type} (channel : Sink σ) (sink : σ) (report : Report),
          (Pass.run channel ⟨true, policy⟩ after sink).result = .ok report →
          (Pass.run channel ⟨true, policy⟩ after sink).classes = after) ∧
      ∀ (policy : Policy) (ids : IdSet) {σ : Type} (channel : Sink σ) (sink : σ),
        let named := (Acknowledgement.acknowledge ids after).1
        let run := Pass.run channel ⟨true, policy⟩ after sink
        Pass.run channel ⟨true, policy⟩ named sink =
            { run with classes := (Acknowledgement.acknowledge ids run.classes).1 } ∧
          Pass.runCalls channel policy named sink = Pass.runCalls channel policy after sink := by
  -- The model at the start is its own revision, by no policies and without names.
  have start (model : List GeneratedClass) :
      model.map (·.revised [] fun _ => false) = model := by
    simp [GeneratedClass.revised_start]
  have revised (steps : List Operation) (result : List GeneratedClass)
      (done : history steps classes = some result) :
      result = classes.map
        (·.revised (Operation.policies steps) (Operation.named steps)) := by
    rw [← start classes] at done
    simpa using history_revised steps [] (fun _ => false) classes result done
  have final := revised operations after completed
  refine ⟨final, ?_, ?_, ?_⟩
  · intro others result done samePolicies sameNames
    rw [final, revised others result done, samePolicies, funext sameNames]
  · intro policy last σ channel sink report succeeded
    obtain ⟨passed, _⟩ := (Pass.run_ok_iff channel policy after sink report).mp succeeded
    rw [(Pass.run_passed channel policy after sink passed).1, final, List.map_map]
    apply List.map_congr_left
    intro c _
    rw [Function.comp_apply, GeneratedClass.settled_revised,
      GeneratedClass.revised_repeated _ _ policy c last]
  · intro policy ids σ channel sink
    simp only [Acknowledgement.acknowledge_marked]
    refine ⟨Pass.run_marked ids.contains channel ⟨true, policy⟩ after sink, ?_⟩
    simp only [Pass.runCalls, Pass.run_marked, Pass.Run.marked]

def sampleHistory : List Operation :=
  [.run Pass.deafToWarnings ⟨0, 0⟩ .schemaDefault,
    .acknowledge (IdSet.ofList [⟨"Host", "retries", 1⟩]),
    .run Sink.collecting [] .annotationLiteral]

/-- The second policy finds no literal, so that of the first one stays. -/
def sampleRevision : List GeneratedClass :=
  [⟨"Host", none,
    [⟨"retries", .attribute (some "3"),
        [Pass.sampleMarker 4, (Pass.sampleMarker 5).marked true], none,
        some ⟨.integer .int, some (.integer .int "3")⟩⟩,
      ⟨"port", .attribute (some "110"), [], none, some ⟨.integer .int, none⟩⟩,
      ⟨"hostname", .element, [Pass.sampleMarker 9], none, some ⟨.string, none⟩⟩]⟩]

theorem sample_history_completed :
    history sampleHistory [Pass.sampleClass] = some sampleRevision := by
  rfl

theorem sample_history_determined :
    history sampleHistory [Pass.sampleClass] = some sampleRevision ∧
      (Operation.policies sampleHistory).getLast? = some .annotationLiteral ∧
      (∃ report, (Pass.run Sink.collecting ⟨true, .annotationLiteral⟩ sampleRevision []).result =
        .ok report) ∧
      (Pass.run Sink.collecting ⟨true, .annotationLiteral⟩ sampleRevision []).classes =
        sampleRevision := by
  obtain ⟨_, _, repeated, _⟩ :=
    history_determined sampleHistory [Pass.sampleClass] sampleRevision sample_history_completed
  have succeeded : ∃ report,
      (Pass.run Sink.collecting ⟨true, .annotationLiteral⟩ sampleRevision []).result =
        .ok report := ⟨_, rfl⟩
  obtain ⟨report, answered⟩ := succeeded
  exact ⟨sample_history_completed, rfl, ⟨report, answered⟩,
    repeated .annotationLiteral rfl Sink.collecting [] report answered⟩

end Histories

end SchemaDefaults
