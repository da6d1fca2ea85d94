import ChatRelay.Proofs.Audience.Renaming

/-! Groups do not interfere. Two audiences are run side by side, one with all operations and one without those
of other groups' consumers; whatever one group can see they have in common. -/
namespace ChatRelay.Audience

variable {roster : Nat → Consumer.Options} {name : String} {rename : Nat → Nat} {alone whole : Audience}

/-- What two audiences have in common for a group whose members have other numbers in the second. -/
structure Alike (roster : Nat → Consumer.Options) (name : String) (rename : Nat → Nat)
    (alone whole : Audience) : Prop where
  broker : Broker.Alike name rename alone.broker whole.broker
  consumers : ∀ place, (roster place).group = name →
    whole.consumers[place]? = alone.consumers[place]?.map (·.renamed rename)
  numbered : ∀ place consumer, (roster place).group = name →
    alone.consumers[place]? = some consumer → alone.broker.Numbers consumer
  seated : alone.Seated roster

namespace Alike

theorem foreign (alike : Alike roster name rename alone whole) (seated : whole.Seated roster)
    (foreign : operation.concerns roster name = false) :
    Alike roster name rename alone (whole.perform roster operation).2 where
  broker := alike.broker.keeps (seated.keeps foreign)
  consumers := fun place own => (consumer?_perform_foreign foreign own).trans (alike.consumers place own)
  numbered := alike.numbered
  seated := alike.seated

section

variable (alike : Alike roster name rename alone whole)
include alike

theorem createTopic (topic : String) (partitions : Nat) :
    Alike roster name rename (alone.perform roster (.createTopic topic partitions)).2
      (whole.perform roster (.createTopic topic partitions)).2 where
  broker := alike.broker.createTopic topic partitions
  consumers := alike.consumers
  numbered := fun place consumer own found =>
    (alike.numbered place consumer own found).mono (Nat.le_of_eq (Broker.lastMember_createTopic ..).symm)
  seated := alike.seated.perform _

theorem append (partition : Partition) (data : Bytes) :
    Alike roster name rename (alone.perform roster (.append partition data)).2
      (whole.perform roster (.append partition data)).2 where
  broker := (alike.broker.append partition data).2
  consumers := alike.consumers
  numbered := fun place consumer own found =>
    (alike.numbered place consumer own found).mono (Nat.le_of_eq (Broker.lastMember_append ..).symm)
  seated := alike.seated.perform _

theorem arrive (own : (roster place).group = name) :
    Alike roster name rename (alone.perform roster (.arrive place)).2
      (whole.perform roster (.arrive place)).2 := by
  have present : place ∈ whole.consumers ↔ place ∈ alone.consumers := by
    rw [Std.ExtTreeMap.mem_iff_isSome_getElem?, Std.ExtTreeMap.mem_iff_isSome_getElem?,
      alike.consumers place own, Option.isSome_map]
  refine ⟨alike.broker, ?_, ?_, alike.seated.perform _⟩
  · intro other same
    simp only [Audience.perform, Std.ExtTreeMap.getElem?_insertIfNew, present, alike.consumers other same]
    split <;> rfl
  · intro other consumer same found
    simp only [Audience.perform, Std.ExtTreeMap.getElem?_insertIfNew] at found
    split at found
    · cases found
      intro id given
      cases given
    · exact alike.numbered other consumer same found

/-- A consumer that is asked may get a number; the others keep theirs. -/
theorem ask (own : (roster place).group = name) (request : Consumer.Request) :
    (whole.perform roster (.ask place request)).1 = (alone.perform roster (.ask place request)).1 ∧
      ∃ other, Alike roster name other (alone.perform roster (.ask place request)).2
        (whole.perform roster (.ask place request)).2 := by
  have there := alike.consumers place own
  have seated := alike.seated.perform (.ask place request)
  cases found : alone.consumers[place]? with
  | none =>
    rw [found, Option.map_none] at there
    simp only [Audience.perform, found, there, true_and]
    exact ⟨rename, alike⟩
  | some consumer =>
    rw [found, Option.map_some] at there
    obtain ⟨answer, other, same, broker, renamed, numbered⟩ := alike.broker.serve_renamed
      ((alike.seated place consumer found).trans own) (alike.numbered place consumer own found) request
    simp only [Audience.perform, found] at seated
    simp only [Audience.perform, found, there, answer, true_and]
    refine ⟨other, broker, ?_, ?_, seated⟩
    · intro elsewhere mine
      by_cases here : place = elsewhere
      · simp [here, renamed]
      · simp only [Std.ExtTreeMap.getElem?_insert, Std.LawfulEqCmp.compare_eq_iff_eq, here, ↓reduceIte,
          alike.consumers elsewhere mine]
        cases standing : alone.consumers[elsewhere]? with
        | none => rfl
        | some bystander =>
          have numbered := alike.numbered elsewhere bystander mine standing
          exact congrArg some (Consumer.renamed_congr numbered same)
    · intro elsewhere bystander mine standing
      rw [Std.ExtTreeMap.getElem?_insert] at standing
      split at standing
      · cases standing
        exact numbered
      · exact (alike.numbered elsewhere bystander mine standing).mono
          (consumer.lastMember_serve alone.broker request)

theorem drop (own : (roster place).group = name) :
    (whole.perform roster (.drop place)).1 = (alone.perform roster (.drop place)).1 ∧
      Alike roster name rename (alone.perform roster (.drop place)).2
        (whole.perform roster (.drop place)).2 := by
  have there := alike.consumers place own
  have seated := alike.seated.perform (.drop place)
  cases found : alone.consumers[place]? with
  | none =>
    rw [found, Option.map_none] at there
    simp only [Audience.perform, found, there, true_and]
    exact alike
  | some consumer =>
    rw [found, Option.map_some] at there
    have broker := alike.broker.leave_renamed ((alike.seated place consumer found).trans own)
      (alike.numbered place consumer own found)
    simp only [Audience.perform, found] at seated
    simp only [Audience.perform, found, there, true_and]
    refine ⟨broker, ?_, ?_, seated⟩
    · intro elsewhere mine
      simp only [Std.ExtTreeMap.getElem?_erase, alike.consumers elsewhere mine]
      split <;> rfl
    · intro elsewhere bystander mine standing
      rw [Std.ExtTreeMap.getElem?_erase] at standing
      split at standing
      · cases standing
      · exact (alike.numbered elsewhere bystander mine standing).mono
          (Nat.le_of_eq (consumer.lastMember_leave alone.broker).symm)

/-- Whatever is not done by a consumer of another group comes to the same. -/
theorem perform (concerns : operation.concerns roster name) :
    (whole.perform roster operation).1 = (alone.perform roster operation).1 ∧
      ∃ other, Alike roster name other (alone.perform roster operation).2
        (whole.perform roster operation).2 := by
  cases operation with
  | createTopic topic partitions => exact ⟨rfl, rename, alike.createTopic topic partitions⟩
  | failPublishes count =>
    exact ⟨rfl, rename, alike.broker.failPublishes count, alike.consumers, alike.numbered,
      alike.seated.perform _⟩
  | append partition data =>
    exact ⟨congrArg Outcome.appended (alike.broker.append partition data).1, rename,
      alike.append partition data⟩
  | arrive place => exact ⟨rfl, rename, alike.arrive (Operation.own concerns rfl)⟩
  | ask place request => exact alike.ask (Operation.own concerns rfl) request
  | drop place =>
    obtain ⟨outcome, dropped⟩ := alike.drop (Operation.own concerns rfl)
    exact ⟨outcome, rename, dropped⟩

end

end Alike

/-- All that a group can see is as if the consumers of other groups had done nothing. -/
structure Undisturbed (roster : Nat → Consumer.Options) (name : String) (operations : List Operation) :
    Prop where
  /-- The operations have the same outcomes: offsets and errors of appends, and what the consumers of the
  group are answered and their listeners are told. -/
  outcomes : (outcomes roster {} operations).filter (·.1.concerns roster name) =
    Audience.outcomes roster {} (operations.filter (·.concerns roster name))
  /-- The consumers of the group end with the same assignments. -/
  assignment : ∀ place, (roster place).group = name →
    (after roster operations).consumers[place]?.map Consumer.assignment =
      (after roster (operations.filter (·.concerns roster name))).consumers[place]?.map Consumer.assignment
  /-- The group has committed the same. -/
  committed : (after roster operations).broker.committed? name =
    (after roster (operations.filter (·.concerns roster name))).broker.committed? name
  /-- Nothing that a consumer of another group goes on to do, such as to leave, changes the group, its
  generation and assignments included, or where one of its consumers stands. -/
  untouched : ∀ operation : Operation, operation.concerns roster name = false →
    (after roster operations).broker.Keeps name ((after roster operations).perform roster operation).2.broker ∧
      ∀ place, (roster place).group = name →
        ((after roster operations).perform roster operation).2.consumers[place]? =
          (after roster operations).consumers[place]?

theorem Alike.run (alike : Alike roster name rename alone whole) (seated : whole.Seated roster)
    (operations : List Operation) :
    (outcomes roster whole operations).filter (·.1.concerns roster name) =
        outcomes roster alone (operations.filter (·.concerns roster name)) ∧
      ∃ other, Alike roster name other (alone.run roster (operations.filter (·.concerns roster name)))
        (whole.run roster operations) := by
  induction operations generalizing rename alone whole with
  | nil => exact ⟨rfl, rename, alike⟩
  | cons operation operations ih =>
    cases concerns : operation.concerns roster name with
    | false =>
      have same := ih (alike.foreign seated concerns) (seated.perform operation)
      simpa [Audience.outcomes, Audience.run, concerns] using same
    | true =>
      obtain ⟨outcome, other, alike⟩ := alike.perform concerns
      have same := ih alike (seated.perform operation)
      simpa [Audience.outcomes, Audience.run, concerns, outcome] using same

/-- The operations of other groups' consumers can be left out, and one group cannot tell. -/
theorem groups_do_not_interfere (roster : Nat → Consumer.Options) (operations : List Operation)
    (name : String) : Undisturbed roster name operations := by
  have seated : (after roster operations).Seated roster := seated_after operations
  have first : Alike roster name id {} {} :=
    ⟨.empty name, by simp, by simp, seated_after []⟩
  obtain ⟨outcomes, other, alike⟩ := first.run (seated_after []) operations
  refine ⟨outcomes, fun place own => ?_, alike.broker.committed?, fun operation foreign => ?_⟩
  · rw [after, after, alike.consumers place own, Option.map_map]
    rfl
  · exact ⟨seated.keeps foreign, fun place own => consumer?_perform_foreign foreign own⟩

end ChatRelay.Audience
