import Mathlib.Algebra.Group.Nat.Defs
import Mathlib.Data.List.Induction
import ChatRelay.Proofs.Broker.Generations
import ChatRelay.Proofs.Cluster

namespace ChatRelay

namespace Worker

variable (worker : Worker) (broker : Broker) (operation : Operation) (name : String) {id : Nat}

theorem becomes_perform :
    (broker.group name).Becomes broker.topics (worker.perform broker operation).2.topics
      ((worker.perform broker operation).2.group name) := by
  rw [topics_perform]
  cases operation with
  | subscribe topics => exact broker.becomes_subscribe worker.consumer name topics
  | synchronise => simp only [perform]; split <;> exact .refl ..
  | fetch => simp only [perform]; split <;> exact .refl ..
  | commit => exact broker.becomes_commit worker.consumer name _
  | rewind => exact .refl ..

/-- Only whoever is no member yet is enrolled by an operation. -/
theorem ids_perform (present : worker.consumer.member = some id)
    (enrolled : id ∈ (broker.group worker.consumer.group).ids) :
    ((worker.perform broker operation).2.group name).ids = (broker.group name).ids := by
  cases operation with
  | subscribe topics =>
    simp only [perform, Broker.group_subscribe, present, Option.getD_some]
    split
    · rename_i same
      rw [Group.ids_rebalance, Group.ids_enrol, if_pos (same ▸ enrolled)]
    · rfl
  | synchronise => simp only [perform]; split <;> rfl
  | fetch => simp only [perform]; split <;> rfl
  | commit =>
    unfold Group.ids
    rw [perform, (Broker.group_commit ..).1]
  | rewind => rfl

end Worker

namespace Cluster

def groupOf? (cluster : Cluster) (member : Nat) : Option String :=
  cluster.workers[member]?.map (·.consumer.group)

/-- The members of a group are the workers that read for it, in the order in which they joined. -/
structure Staffed (cluster : Cluster) : Prop where
  ordered : ∀ name, (cluster.broker.group name).Ordered
  member_iff : ∀ name member,
    member ∈ (cluster.broker.group name).ids ↔ cluster.groupOf? member = some name

variable {cluster : Cluster} {move : Move} {moves more : List Move} {name : String} {member : Nat}

theorem groupOf?_eq_some_iff (found : cluster.workers[member]? = some worker) :
    cluster.groupOf? member = some name ↔ worker.consumer.group = name := by
  simp [groupOf?, found]

/-- A move leaves the assignments of a group as they are or shares its partitions out anew. -/
theorem becomes_step (cluster : Cluster) (move : Move) (name : String) :
    (cluster.broker.group name).Becomes cluster.broker.topics (cluster.step move).broker.topics
      ((cluster.step move).broker.group name) := by
  cases move with
  | createTopic topic partitions => exact cluster.broker.becomes_createTopic topic partitions name
  | failPublishes count => exact .refl ..
  | append partition data => exact cluster.broker.becomes_append name partition data
  | join id group maxRecords topics => exact cluster.broker.becomes_subscribe _ name topics
  | operate member operation =>
    simp only [step]
    split
    · exact .refl ..
    · rename_i worker _
      exact worker.becomes_perform cluster.broker operation name
  | leave member =>
    simp only [step]
    split
    · exact .refl ..
    · rename_i worker _
      have topics : (worker.consumer.leave cluster.broker).topics = cluster.broker.topics := by
        unfold Consumer.leave
        split <;> rfl
      rw [topics]
      exact cluster.broker.becomes_leave worker.consumer name

theorem precedes_run (cluster : Cluster) (moves : List Move) (name : String) :
    (cluster.broker.group name).Precedes ((cluster.run moves).broker.group name) := by
  induction moves generalizing cluster with
  | nil => exact .refl _
  | cons move moves ih => exact (cluster.becomes_step move name).precedes.trans (ih (cluster.step move))

theorem sharedOut_run (shared : (cluster.broker.group name).SharedOut cluster.broker.topics)
    (moves : List Move) :
    ((cluster.run moves).broker.group name).SharedOut (cluster.run moves).broker.topics :=
  run_induct (fun cluster move shared => (cluster.becomes_step move name).sharedOut shared) shared moves

theorem Sound.groupOf?_step (sound : cluster.Sound) (move : Move) (member : Nat) :
    (cluster.step move).groupOf? member =
      match move with
      | .join _ group _ _ =>
        if member = cluster.broker.lastMember + 1 then some group else cluster.groupOf? member
      | .leave other => if member = other then none else cluster.groupOf? member
      | _ => cluster.groupOf? member := by
  cases move with
  | createTopic topic partitions => rfl
  | failPublishes count => rfl
  | append partition data => rfl
  | join id group maxRecords topics =>
    simp only [Cluster.step, groupOf?, Consumer.subscribe, Consumer.create, Option.getD_none]
    rw [Nat.max_eq_right (Nat.le_succ _), Std.ExtTreeMap.getElem?_insert]
    by_cases fresh : member = cluster.broker.lastMember + 1
    · simp [fresh]
    · simp [fresh, Ne.symm fresh]
  | operate other operation =>
    cases found : cluster.workers[other]? with
    | none => simp [Cluster.step, found]
    | some worker =>
      simp only [Cluster.step, found, groupOf?, Std.ExtTreeMap.getElem?_insert]
      by_cases same : other = member
      · subst same
        obtain ⟨present, _⟩ := sound other worker found
        simp [found, (worker.identity_perform cluster.broker operation present).2]
      · simp [same]
  | leave other =>
    by_cases same : member = other
    · subst same
      cases found : cluster.workers[member]? <;> simp [Cluster.step, groupOf?, found]
    · cases found : cluster.workers[other]? <;>
        simp [Cluster.step, groupOf?, found, same, Std.ExtTreeMap.getElem?_erase, Ne.symm same]

namespace Staffed

variable (staffed : cluster.Staffed)
include staffed

theorem le_lastMember (sound : cluster.Sound) (enrolled : member ∈ (cluster.broker.group name).ids) :
    member ≤ cluster.broker.lastMember := by
  have there := (staffed.member_iff name member).mp enrolled
  obtain ⟨worker, found, _⟩ := Option.map_eq_some_iff.mp there
  exact (sound member worker found).2.1

theorem ids_step (sound : cluster.Sound) (move : Move) (name : String) :
    ((cluster.step move).broker.group name).ids =
      match move with
      | .join _ group _ _ =>
        (cluster.broker.group name).ids ++ if group = name then [cluster.broker.lastMember + 1] else []
      | .leave member => (cluster.broker.group name).ids.filter (· != member)
      | _ => (cluster.broker.group name).ids := by
  cases move with
  | createTopic topic partitions => exact cluster.broker.ids_createTopic topic partitions name
  | failPublishes count => rfl
  | append partition data =>
    simp only [Cluster.step]
    rw [Broker.group_append]
  | join id group maxRecords topics =>
    simp only [Cluster.step, Broker.group_subscribe, Consumer.create, Option.getD_none]
    split
    · have fresh : cluster.broker.lastMember + 1 ∉ (cluster.broker.group name).ids := fun enrolled =>
        absurd (staffed.le_lastMember sound enrolled) (Nat.not_succ_le_self _)
      rw [Group.ids_rebalance, Group.ids_enrol, if_neg fresh]
    · simp
  | operate member operation =>
    cases found : cluster.workers[member]? with
    | none => simp [Cluster.step, found]
    | some worker =>
      simp only [Cluster.step, found]
      have enrolled := (staffed.member_iff worker.consumer.group member).mpr ((groupOf?_eq_some_iff found).mpr rfl)
      exact worker.ids_perform cluster.broker operation name (sound member worker found).1 enrolled
  | leave member =>
    have kept (elsewhere : cluster.groupOf? member ≠ some name) :
        (cluster.broker.group name).ids.filter (· != member) = (cluster.broker.group name).ids := by
      refine List.filter_eq_self.mpr fun other enrolled => bne_iff_ne.mpr ?_
      rintro rfl
      exact elsewhere ((staffed.member_iff name other).mp enrolled)
    cases found : cluster.workers[member]? with
    | none => simp [Cluster.step, found, kept, groupOf?]
    | some worker =>
      simp only [Cluster.step, found, Broker.group_leave (sound member worker found).1]
      by_cases same : worker.consumer.group = name
      · have enrolled := (staffed.member_iff name member).mpr ((groupOf?_eq_some_iff found).mpr same)
        have there : name ∈ cluster.broker.groups := by
          by_contra missing
          simp [Broker.group, Group.ids, Std.ExtTreeMap.getD_eq_fallback missing] at enrolled
        rw [if_pos ⟨same, there⟩, Group.ids_rebalance, Group.ids_dismiss]
      · rw [if_neg fun here => same here.1, kept (mt (groupOf?_eq_some_iff found).mp same)]

theorem step (sound : cluster.Sound) (move : Move) : (cluster.step move).Staffed where
  ordered name := by
    have ordered := staffed.ordered name
    unfold Group.Ordered at ordered ⊢
    rw [staffed.ids_step sound move name]
    cases move with
    | join id group maxRecords topics =>
      dsimp only
      split
      · refine List.pairwise_append.mpr ⟨ordered, List.pairwise_singleton .., ?_⟩
        intro member enrolled fresh last
        cases List.mem_singleton.mp last
        exact Nat.lt_succ_of_le (staffed.le_lastMember sound enrolled)
      · simpa using ordered
    | leave member => exact ordered.filter _
    | _ => exact ordered
  member_iff name member := by
    have same := staffed.member_iff name member
    rw [staffed.ids_step sound move name, sound.groupOf?_step move member]
    cases move with
    | join id group maxRecords topics =>
      dsimp only
      by_cases fresh : member = cluster.broker.lastMember + 1
      · subst fresh
        have new : cluster.broker.lastMember + 1 ∉ (cluster.broker.group name).ids := fun enrolled =>
          absurd (staffed.le_lastMember sound enrolled) (Nat.not_succ_le_self _)
        by_cases here : group = name <;> simp [here, new]
      · by_cases here : group = name <;> simp [fresh, here, same]
    | leave other =>
      by_cases gone : member = other <;> simp [gone, same]
    | _ => exact same

theorem run (sound : cluster.Sound) (moves : List Move) : (cluster.run moves).Staffed := by
  induction moves generalizing cluster with
  | nil => exact staffed
  | cons move moves ih => exact ih (staffed.step sound move) (sound.step move)

end Staffed

theorem staffed_after (moves : List Move) : (after moves).Staffed := by
  refine Staffed.run ⟨?_, ?_⟩ (fun _ _ found => by simp at found) moves
  · intro name
    simp [Broker.group, Group.Ordered, Group.ids]
  · intro name member
    simp [Broker.group, Group.ids, groupOf?]

theorem sharedOut_after (moves : List Move) (name : String) :
    ((after moves).broker.group name).SharedOut (after moves).broker.topics := by
  refine sharedOut_run ?_ moves
  intro membership member
  simp [Broker.group] at member

theorem lastMember_after_le (moves : List Move) : (after moves).broker.lastMember ≤ moves.length := by
  induction moves using List.reverseRecOn with
  | nil => exact Nat.le_refl _
  | append_singleton moves move ih =>
    rw [after_concat, (sound_after moves).lastMember_step, List.length_append, List.length_singleton]
    split <;> omega

theorem generation_after_le (moves : List Move) (name : String) :
    ((after moves).broker.group name).generation ≤ moves.length := by
  induction moves using List.reverseRecOn with
  | nil => simp [after, Cluster.run, Broker.group]
  | append_singleton moves move ih =>
    rw [after_concat, List.length_append, List.length_singleton]
    exact Nat.le_trans ((after moves).becomes_step move name).generation_le (Nat.succ_le_succ ih)

/-- Up to `2 ^ 64` moves no counter of the broker leaves 64 bits. -/
theorem counters_lt (few : moves.length < 2 ^ 64) :
    (after moves).broker.lastMember < 2 ^ 64 ∧
      ∀ name, ((after moves).broker.group name).generation < 2 ^ 64 :=
  ⟨Nat.lt_of_le_of_lt (lastMember_after_le moves) few,
    fun name => Nat.lt_of_le_of_lt (generation_after_le moves name) few⟩

theorem partitionCount_step (cluster : Cluster) (move : Move) (topic : String) :
    (cluster.step move).broker.topics.partitionCount topic =
      match move with
      | .createTopic other partitions =>
        if other = topic then max partitions (cluster.broker.topics.partitionCount topic)
        else cluster.broker.topics.partitionCount topic
      | _ => cluster.broker.topics.partitionCount topic := by
  rw [topics_step]
  cases move with
  | createTopic other partitions =>
    dsimp only
    rw [Broker.partitionCount_createTopic]
    split
    · rename_i same
      rw [same]
    · rfl
  | append partition data => exact Broker.partitionCount_append ..
  | failPublishes | join | operate | leave => rfl

theorem partitionCount_after {limit : Nat} {topic : String}
    (bounded : ∀ partitions, .createTopic topic partitions ∈ moves → partitions ≤ limit) :
    (after moves).broker.topics.partitionCount topic ≤ limit := by
  induction moves using List.reverseRecOn with
  | nil => simp [after, Cluster.run, Topics.partitionCount]
  | append_singleton moves move ih =>
    have earlier := ih fun partitions asked => bounded partitions (by simp [asked])
    rw [after_concat, partitionCount_step]
    split
    · rename_i other partitions
      split
      · rename_i same
        subst same
        exact Nat.max_le.mpr ⟨bounded partitions (by simp), earlier⟩
      · exact earlier
    · exact earlier

theorem coversExactly_after
    (bounded : ∀ topic partitions, .createTopic topic partitions ∈ moves → partitions ≤ 0x7fffffff)
    (name : String) :
    ((after moves).broker.group name).CoversExactly (after moves).broker.topics :=
  (sharedOut_after moves name).coversExactly ((staffed_after moves).ordered name)
    fun topic => partitionCount_after (bounded topic)

/-- The partitions of the topics that a group follows are at any time shared out among the consumers that
read for it, and what these are assigned changes with the generation only. -/
theorem assignments_cover_exactly
    (bounded : ∀ topic partitions, .createTopic topic partitions ∈ moves → partitions ≤ 0x7fffffff)
    (name : String) (more : List Move) :
    ((after moves).broker.group name).CoversExactly (after moves).broker.topics ∧
    (∀ member, member ∈ ((after moves).broker.group name).ids ↔
      (after moves).groupOf? member = some name) ∧
    ((after moves).broker.group name).generation ≤
      ((after (moves ++ more)).broker.group name).generation ∧
    (((after moves).broker.group name).assignments ≠
        ((after (moves ++ more)).broker.group name).assignments →
      ((after moves).broker.group name).generation <
        ((after (moves ++ more)).broker.group name).generation) := by
  have precedes := (after moves).precedes_run more name
  rw [← after_append] at precedes
  refine ⟨coversExactly_after bounded name, (staffed_after moves).member_iff name,
    precedes.generation_le, fun changed => ?_⟩
  rcases precedes with later | ⟨_, same⟩
  · exact later
  · exact absurd same changed

/-- Two groups on one topic; one of them also asks for a topic that there is not. -/
def twoGroups : List Move :=
  [.createTopic "t" 3, .join "a" "g" 10 ["t", "t", "nowhere"], .join "b" "g" 10 ["t"],
   .join "c" "h" 10 ["t"]]

theorem twoGroups_covered :
    ((after twoGroups).broker.group "g").CoversExactly (after twoGroups).broker.topics ∧
    (((after twoGroups).broker.group "g").assigned 1).toList = [⟨"t", 0⟩, ⟨"t", 1⟩] ∧
    (((after twoGroups).broker.group "g").assigned 2).toList = [⟨"t", 2⟩] ∧
    ((after twoGroups).broker.group "g").generation <
      ((after (twoGroups ++ [.createTopic "t" 5])).broker.group "g").generation := by
  have bounded : ∀ topic partitions, .createTopic topic partitions ∈ twoGroups → partitions ≤ 0x7fffffff := by
    simp [twoGroups]
  obtain ⟨covered, _, _, later⟩ := assignments_cover_exactly bounded "g" [.createTopic "t" 5]
  refine ⟨covered, by decide +kernel, by decide +kernel, later fun same => ?_⟩
  have unchanged := Group.assigned_congr same 1
  have grown : (((after twoGroups).broker.group "g").assigned 1).toList ≠
      (((after (twoGroups ++ [.createTopic "t" 5])).broker.group "g").assigned 1).toList := by
    decide +kernel
  exact grown (by rw [unchanged])

end Cluster
end ChatRelay
