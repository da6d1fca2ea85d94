import Mathlib.Order.Interval.Set.Basic
import ChatRelay.Proofs.Audience
import ChatRelay.Proofs.Broker.Generations
import ChatRelay.Proofs.Group.Renaming

namespace ChatRelay

/-- The consumer with another number in its group. -/
def Consumer.renamed (rename : Nat → Nat) (consumer : Consumer) : Consumer :=
  { consumer with member := consumer.member.map rename }

def Broker.Numbers (broker : Broker) (consumer : Consumer) : Prop :=
  ∀ id, consumer.member = some id → id ≤ broker.lastMember

theorem Broker.Numbers.mono {broker later : Broker} {consumer : Consumer} (numbers : broker.Numbers consumer)
    (upTo : broker.lastMember ≤ later.lastMember) : later.Numbers consumer :=
  fun id present => Nat.le_trans (numbers id present) upTo

/-- What two brokers have in common for a group whose members have other numbers in the second. -/
structure Broker.Alike (name : String) (rename : Nat → Nat) (alone whole : Broker) : Prop where
  topics : whole.topics = alone.topics
  failingPublishes : whole.failingPublishes = alone.failingPublishes
  group : whole.groups[name]? = alone.groups[name]?.map (·.renamed rename)
  within : (alone.group name).Within (Set.Iic alone.lastMember)
  injective : (Set.Iic alone.lastMember).InjOn rename
  given : Set.MapsTo rename (Set.Iic alone.lastMember) (Set.Iic whole.lastMember)

theorem Consumer.renamed_congr {consumer : Consumer} {broker : Broker} (numbered : broker.Numbers consumer)
    (same : (Set.Iic broker.lastMember).EqOn rename other) :
    consumer.renamed rename = consumer.renamed other := by
  cases present : consumer.member with
  | none => simp [renamed, present]
  | some id => simp [renamed, present, same (numbered id present)]

namespace Broker.Alike

variable {name : String} {rename : Nat → Nat} {alone whole : Broker}

theorem empty (name : String) : Alike name id {} {} where
  topics := rfl
  failingPublishes := rfl
  group := by simp
  within := fun membership member => by simp [Broker.group] at member
  injective := Function.injective_id.injOn
  given := fun _ given => given

section

variable (alike : Alike name rename alone whole)
include alike

theorem group_eq : whole.group name = (alone.group name).renamed rename := by
  simp only [Broker.group, Std.ExtTreeMap.getD_eq_getD_getElem?, alike.group]
  cases alone.groups[name]? <;> rfl

theorem committed? : whole.committed? name = alone.committed? name := by
  funext partition
  rw [Broker.committed?, Broker.committed?, alike.group]
  cases alone.groups[name]? <;> rfl

/-- What the group does not see keeps the brokers alike. -/
theorem keeps (keeps : whole.Keeps name later) : Alike name rename alone later where
  topics := keeps.topics.trans alike.topics
  failingPublishes := keeps.failingPublishes.trans alike.failingPublishes
  group := keeps.group.trans alike.group
  within := alike.within
  injective := alike.injective
  given := fun _ given => Nat.le_trans (alike.given given) keeps.lastMember

theorem failPublishes (count : Nat) :
    Alike name rename (alone.failPublishes count) (whole.failPublishes count) :=
  { alike with failingPublishes := rfl }

theorem createTopic (topic : String) (partitions : Nat) :
    Alike name rename (alone.createTopic topic partitions) (whole.createTopic topic partitions) := by
  simp only [Broker.createTopic, alike.topics]
  split
  · exact { alike with topics := rfl }
  · refine { alike with topics := rfl, group := ?_, within := ?_ }
    · simp only [Std.ExtTreeMap.getElem?_map, alike.group, Option.map_map]
      cases found : alone.groups[name]? with
      | none => rfl
      | some group =>
        have within : group.Within (Set.Iic alone.lastMember) := by
          simpa [Broker.group, found, Std.ExtTreeMap.getD_eq_getD_getElem?] using alike.within
        simp only [Option.map_some, Function.comp_apply, Group.follows_renamed]
        split
        · rw [Group.rebalance_renamed alike.injective within]
        · rfl
    · have within := alike.within
      simp only [Broker.group, Std.ExtTreeMap.getD_eq_getD_getElem?, Std.ExtTreeMap.getElem?_map] at within ⊢
      cases found : alone.groups[name]? with
      | none => intro membership member; simp at member
      | some group =>
        rw [found] at within
        simp only [Option.map_some, Option.getD_some] at within ⊢
        split
        · exact within.rebalance _
        · exact within

theorem append (partition : Partition) (data : Bytes) :
    (whole.append partition data).1 = (alone.append partition data).1 ∧
      Alike name rename (alone.append partition data).2 (whole.append partition data).2 := by
  have log : whole.log? partition = alone.log? partition := by simp [Broker.log?, alike.topics]
  unfold Broker.append
  rw [alike.failingPublishes, log]
  split
  · exact ⟨rfl, { alike with failingPublishes := rfl }⟩
  · split
    · exact ⟨rfl, alike⟩
    · exact ⟨rfl, { alike with topics := by rw [alike.topics], failingPublishes := rfl }⟩

/-- A subscription under a number of its own in each of the brokers. -/
theorem subscribe_as {other : Nat → Nat} {id last : Nat} (topics : List String)
    (same : (Set.Iic alone.lastMember).EqOn rename other) (upTo : alone.lastMember ≤ last)
    (injective : (Set.Iic last).InjOn other) (given : id ≤ last) :
    ((whole.group name).enrol (other id) topics).rebalance whole.topics =
        (((alone.group name).enrol id topics).rebalance alone.topics).renamed other ∧
      (((alone.group name).enrol id topics).rebalance alone.topics).Within (Set.Iic last) := by
  have within : (alone.group name).Within (Set.Iic last) := alike.within.mono (Set.Iic_subset_Iic.mpr upTo)
  refine ⟨?_, (within.enrol given topics).rebalance alone.topics⟩
  rw [alike.group_eq, Group.renamed_congr alike.within same, alike.topics,
    Group.enrol_renamed injective within given, Group.rebalance_renamed injective (within.enrol given topics)]

end

section Consumers

variable {consumer : Consumer} (alike : Alike name rename alone whole) (own : consumer.group = name)
include alike own

/-- A new subscriber gets the next number in each of the brokers. -/
theorem subscribe_fresh (absent : consumer.member = none) (topics : List String) :
    let other := Function.update rename (alone.lastMember + 1) (whole.lastMember + 1)
    (Set.Iic alone.lastMember).EqOn rename other ∧
      Alike name other (consumer.subscribe topics alone).2
        ((consumer.renamed rename).subscribe topics whole).2 := by
  subst own
  intro other
  have next : other (alone.lastMember + 1) = whole.lastMember + 1 := by simp [other]
  have same : (Set.Iic alone.lastMember).EqOn rename other := by
    intro id given
    have before : id ≠ alone.lastMember + 1 := Nat.ne_of_lt (Nat.lt_succ_of_le given)
    simp [other, before]
  have before (id : Nat) (given : id ≤ alone.lastMember) : other id ≤ whole.lastMember :=
    same given ▸ alike.given given
  have given : Set.MapsTo other (Set.Iic (alone.lastMember + 1)) (Set.Iic (whole.lastMember + 1)) := by
    intro id given
    rcases Nat.le_add_one_iff.mp given with given | rfl
    · exact Nat.le_succ_of_le (before id given)
    · exact Nat.le_of_eq next
  have injective : (Set.Iic (alone.lastMember + 1)).InjOn other := by
    intro first low second high equal
    rcases Nat.le_add_one_iff.mp low with low | rfl <;> rcases Nat.le_add_one_iff.mp high with high | rfl
    · rw [← same low, ← same high] at equal
      exact alike.injective low high equal
    · have := before first low
      omega
    · have := before second high
      omega
    · rfl
  obtain ⟨group, within⟩ :=
    alike.subscribe_as topics same (Nat.le_succ _) injective (Nat.le_refl (alone.lastMember + 1))
  refine ⟨same, ?_⟩
  simp only [Broker.group, next] at group within
  simp only [Consumer.subscribe, Consumer.renamed, absent, Option.map_none, Option.getD_none,
    Nat.max_eq_right (Nat.le_succ _)]
  refine { alike with group := ?_, within := ?_, injective, given }
  · simp [group]
  · simpa [Broker.group] using within

theorem rewind_renamed :
    (consumer.renamed rename).rewind whole = (consumer.rewind alone).renamed rename := by
  subst own
  simp [Consumer.rewind, Consumer.renamed, alike.group, Function.comp_def, Group.resume, Group.renamed]

variable (numbered : alone.Numbers consumer)
include numbered

theorem synchronise_renamed :
    (consumer.renamed rename).synchronise whole =
      (consumer.synchronise alone).map fun caught => (caught.1, caught.2.renamed rename) := by
  subst own
  cases present : consumer.member with
  | none => simp [Consumer.synchronise, Consumer.renamed, present]
  | some id =>
    cases found : alone.groups[consumer.group]? with
    | none => simp [Consumer.synchronise, Consumer.renamed, present, alike.group, found]
    | some group =>
      have within : group.Within (Set.Iic alone.lastMember) := by
        simpa [Broker.group, found, Std.ExtTreeMap.getD_eq_getD_getElem?] using alike.within
      have assigned := Group.assigned_renamed alike.injective within (numbered id present)
      simp only [Consumer.synchronise, Consumer.renamed, present, alike.group, found, assigned,
        Option.map_some, Option.bind_eq_bind, Option.bind_some]
      by_cases current : group.generation = consumer.generation
      · simp [current, Group.renamed]
      · simp [current, Group.renamed, Consumer.assignment, Consumer.reposition, Group.resume]

theorem catchUp_renamed :
    (consumer.renamed rename).catchUp whole =
      ((consumer.catchUp alone).1, (consumer.catchUp alone).2.renamed rename) := by
  rw [Consumer.catchUp, Consumer.catchUp, alike.synchronise_renamed own numbered]
  cases consumer.synchronise alone <;> rfl

theorem poll_renamed :
    (consumer.renamed rename).poll whole =
      ((consumer.poll alone).1, (consumer.poll alone).2.1, (consumer.poll alone).2.2.renamed rename) := by
  have absent : (consumer.renamed rename).member.isNone = consumer.member.isNone := by
    simp [Consumer.renamed]
  rw [Consumer.poll, Consumer.poll, absent, alike.catchUp_renamed own numbered, alike.topics]
  split <;> rfl

theorem commit_renamed (marks : List Mark) :
    ((consumer.renamed rename).commit marks whole).1 = (consumer.commit marks alone).1 ∧
      Alike name rename (consumer.commit marks alone).2 ((consumer.renamed rename).commit marks whole).2 := by
  subst own
  cases present : consumer.member with
  | none => simpa [Consumer.commit, Consumer.renamed, Consumer.notSubscribed, present] using alike
  | some id =>
    cases found : alone.groups[consumer.group]? with
    | none => simpa [Consumer.commit, Consumer.renamed, present, alike.group, found] using alike
    | some group =>
      have within : group.Within (Set.Iic alone.lastMember) := by
        simpa [Broker.group, found, Std.ExtTreeMap.getD_eq_getD_getElem?] using alike.within
      have owns := Group.owns_renamed alike.injective within (numbered id present)
      simp only [Consumer.commit, Consumer.renamed, present, alike.group, found, Option.map_some, owns,
        true_and]
      refine { alike with group := ?_, within := ?_ }
      · simp [Group.renamed]
      · simpa [Broker.group, Group.Within] using within

theorem leave_renamed :
    Alike name rename (consumer.leave alone) ((consumer.renamed rename).leave whole) := by
  subst own
  cases present : consumer.member with
  | none => simpa [Consumer.leave, Consumer.renamed, present] using alike
  | some id =>
    simp only [Consumer.leave, Consumer.renamed, present, Option.map_some]
    refine { alike with group := ?_, within := ?_ }
    · cases found : alone.groups[consumer.group]? with
      | none => simp [alike.group, found]
      | some group =>
        have within : group.Within (Set.Iic alone.lastMember) := by
          simpa [Broker.group, found, Std.ExtTreeMap.getD_eq_getD_getElem?] using alike.within
        simp only [Std.ExtTreeMap.getElem?_modify_self, alike.group, found, Option.map_some, alike.topics,
          Group.dismiss_renamed alike.injective within (numbered id present),
          Group.rebalance_renamed alike.injective (within.dismiss id)]
    · have within := alike.within
      simp only [Broker.group, Std.ExtTreeMap.getD_eq_getD_getElem?] at within ⊢
      rw [Std.ExtTreeMap.getElem?_modify_self]
      cases found : alone.groups[consumer.group]? with
      | none => intro membership member; simp at member
      | some group =>
        rw [found] at within
        exact (within.dismiss id).rebalance alone.topics

theorem subscribe_renamed {id : Nat} (present : consumer.member = some id) (topics : List String) :
    Alike name rename (consumer.subscribe topics alone).2
      ((consumer.renamed rename).subscribe topics whole).2 := by
  subst own
  have given := numbered id present
  have last : max alone.lastMember id = alone.lastMember := Nat.max_eq_left given
  have lastWhole : max whole.lastMember (rename id) = whole.lastMember := Nat.max_eq_left (alike.given given)
  obtain ⟨group, within⟩ := alike.subscribe_as topics (fun _ _ => rfl) (Nat.le_refl _) alike.injective given
  simp only [Broker.group] at group within
  simp only [Consumer.subscribe, Consumer.renamed, present, Option.map_some, Option.getD_some, last, lastWhole]
  refine { alike with group := ?_, within := ?_ }
  · simp [group]
  · simpa [Broker.group] using within

/-- Whatever a consumer of the group is asked for, it answers the same on both brokers. -/
theorem serve_renamed (request : Consumer.Request) :
    ((consumer.renamed rename).serve whole request).1 = (consumer.serve alone request).1 ∧
      ∃ other, (Set.Iic alone.lastMember).EqOn rename other ∧
        Alike name other (consumer.serve alone request).2.2
          ((consumer.renamed rename).serve whole request).2.2 ∧
        ((consumer.renamed rename).serve whole request).2.1 =
          (consumer.serve alone request).2.1.renamed other ∧
        (consumer.serve alone request).2.2.Numbers (consumer.serve alone request).2.1 := by
  cases request with
  | subscribe topics =>
    refine ⟨rfl, ?_⟩
    cases present : consumer.member with
    | none =>
      obtain ⟨same, alike⟩ := alike.subscribe_fresh own present topics
      refine ⟨_, same, alike, ?_, ?_⟩
      · simp [Consumer.serve, Consumer.subscribe, Consumer.renamed, present]
      · intro id given
        simp [Consumer.serve, Consumer.subscribe, present] at given ⊢
        omega
    | some id =>
      refine ⟨rename, fun _ _ => rfl, alike.subscribe_renamed own numbered present topics, ?_, ?_⟩
      · simp [Consumer.serve, Consumer.subscribe, Consumer.renamed, present]
      · intro other given
        simp [Consumer.serve, Consumer.subscribe, present] at given ⊢
        omega
  | catchUp =>
    simp only [Consumer.serve, alike.catchUp_renamed own numbered, true_and]
    refine ⟨rename, fun _ _ => rfl, alike, rfl, fun id given => numbered id ?_⟩
    exact (consumer.group_catchUp alone).2 ▸ given
  | poll =>
    simp only [Consumer.serve, alike.poll_renamed own numbered, true_and]
    refine ⟨rename, fun _ _ => rfl, alike, rfl, fun id given => numbered id ?_⟩
    exact (consumer.group_poll alone).2 ▸ given
  | commit marks =>
    obtain ⟨result, kept⟩ := alike.commit_renamed own numbered marks
    refine ⟨congrArg Consumer.Answer.committed result, rename, fun _ _ => rfl, kept, rfl, fun id given => ?_⟩
    have given := numbered id given
    simp only [Consumer.serve, Consumer.commit]
    split
    · exact given
    · split <;> exact given
  | rewind => exact ⟨rfl, rename, fun _ _ => rfl, alike, alike.rewind_renamed own, numbered⟩
  | assignment => exact ⟨rfl, rename, fun _ _ => rfl, alike, rfl, numbered⟩

end Consumers

end Broker.Alike
end ChatRelay
