import Mathlib.Algebra.Group.Nat.Defs
import Mathlib.Data.List.Nodup
import Std.Data.String.ToNat
import ChatRelay.Identity
import ChatRelay.Proofs.Text.Pieces

namespace ChatRelay

inductive Client where
  | producer
  | consumer
deriving DecidableEq, Repr

namespace Client

/-- A producer's context stands behind its number, a consumer's kind before it. -/
def name (client : Client) (label : String) (number : Nat) : String :=
  match client with
  | .producer => s!"{number}@{label}"
  | .consumer => s!"{label}-{number}"

theorem toList_name (client : Client) (label : String) (number : Nat) :
    (client.name label number).toList = match client with
      | .producer => Nat.toDigits 10 number ++ '@' :: label.toList
      | .consumer => label.toList ++ '-' :: Nat.toDigits 10 number := by
  cases client <;> simp [name] <;> rfl

/-- A name tells its label and its number, since no separator stands in the number. -/
theorem name_inj {client : Client} {label other : String} {number another : Nat}
    (same : client.name label number = client.name other another) : label = other ∧ number = another := by
  have letters := congrArg String.toList same
  rw [toList_name, toList_name] at letters
  cases client with
  | producer =>
    obtain ⟨numbers, labels⟩ := Text.eq_of_first_separator (Text.notMem_toDigits (by decide) number)
      (Text.notMem_toDigits (by decide) another) letters
    exact ⟨String.toList_inj.mp labels, Nat.repr_injective (congrArg String.ofList numbers)⟩
  | consumer =>
    obtain ⟨labels, numbers⟩ := Text.eq_of_last_separator (Text.notMem_toDigits (by decide) number)
      (Text.notMem_toDigits (by decide) another) letters
    exact ⟨String.toList_inj.mp labels, Nat.repr_injective (congrArg String.ofList numbers)⟩

end Client

namespace InstanceNames

/-- A call for the next name of a client, with a context or a kind. -/
structure Call where
  client : Client
  label : String
deriving DecidableEq, Repr

def next (names : InstanceNames) (call : Call) : String × InstanceNames :=
  match call.client with
  | .producer => names.nextProducer call.label
  | .consumer => names.nextConsumer call.label

/-- How many clients of a sort were named, as far as a word counts. -/
def named (names : InstanceNames) : Client → UInt64
  | .producer => names.producers
  | .consumer => names.consumers

def answers (names : InstanceNames) : List Call → List (Call × String)
  | [] => []
  | call :: later => (call, (names.next call).1) :: (names.next call).2.answers later

/-- The names that the clients of one sort are given, in the order of the calls. -/
def issued (names : InstanceNames) (client : Client) (calls : List Call) : List String :=
  ((names.answers calls).filter (·.1.client = client)).map (·.2)

def labels (client : Client) (calls : List Call) : List String :=
  (calls.filter (·.client = client)).map (·.label)

variable {names : InstanceNames} {client : Client} {calls : List Call} {number : Nat}

theorem next_fst (names : InstanceNames) (call : Call) :
    (names.next call).1 = call.client.name call.label (names.named call.client + 1).toNat := by
  obtain ⟨client, label⟩ := call
  cases client <;> rfl

theorem named_next (names : InstanceNames) (call : Call) (client : Client) :
    (names.next call).2.named client =
      if call.client = client then names.named client + 1 else names.named client := by
  obtain ⟨other, label⟩ := call
  cases other <;> cases client <;> rfl

theorem issued_cons (names : InstanceNames) (client : Client) (call : Call) (later : List Call) :
    names.issued client (call :: later) =
      if call.client = client then (names.next call).1 :: (names.next call).2.issued client later
      else (names.next call).2.issued client later := by
  by_cases own : call.client = client <;> simp [issued, answers, own]

theorem labels_cons (client : Client) (call : Call) (later : List Call) :
    labels client (call :: later) =
      if call.client = client then call.label :: labels client later else labels client later := by
  by_cases own : call.client = client <;> simp [labels, own]

theorem length_labels_le (client : Client) (calls : List Call) :
    (labels client calls).length ≤ calls.length := by
  rw [labels, List.length_map]
  exact List.length_filter_le _ _

/-- Clients of a sort are numbered on from those that were named before, until the numbers come round. -/
theorem issued_eq (count : (names.named client).toNat = number % 2 ^ 64) (calls : List Call) :
    names.issued client calls = ((labels client calls).zipIdx (number + 1)).map fun entry =>
      client.name entry.1 (entry.2 % 2 ^ 64) := by
  -- a call moves the count on, so the later calls are numbered from any count
  induction calls generalizing names number with
  | nil => rfl
  | cons call later ih =>
    rw [issued_cons, labels_cons]
    have counts := named_next names call client
    by_cases own : call.client = client
    · have advanced : (names.named client + 1).toNat = (number + 1) % 2 ^ 64 := by
        rw [UInt64.toNat_add, count]
        exact Nat.mod_add_mod ..
      rw [if_pos own] at counts
      rw [if_pos own, if_pos own, List.zipIdx_cons, List.map_cons, next_fst, own, advanced]
      rw [ih (counts ▸ advanced)]
    · rw [if_neg own] at counts
      rw [if_neg own, if_neg own, ih (counts ▸ count)]

theorem issued_eq_numbered (client : Client) (calls : List Call) :
    ({} : InstanceNames).issued client calls = ((labels client calls).zipIdx 1).map fun entry =>
      client.name entry.1 (entry.2 % 2 ^ 64) := by
  have nobody : (({} : InstanceNames).named client).toNat = 0 := by cases client <;> rfl
  exact issued_eq nobody calls

/-- How the names that an instance answers calls with are told apart. -/
structure NamedApart (calls : List Call) : Prop where
  once : ∀ client, (({} : InstanceNames).issued client calls).Nodup
  /-- Each call is answered with its label and the number of calls of its sort so far. -/
  numbered : ∀ client, ({} : InstanceNames).issued client calls =
    ((labels client calls).zipIdx 1).map fun entry => client.name entry.1 entry.2
  /-- Calls of one sort are answered alike whatever calls of the other are made between them. -/
  unmoved : ∀ client others, labels client others = labels client calls →
    ({} : InstanceNames).issued client others = ({} : InstanceNames).issued client calls

theorem numbered_of_fits (fits : calls.length < 2 ^ 64) (client : Client) :
    ({} : InstanceNames).issued client calls =
      ((labels client calls).zipIdx 1).map fun entry => client.name entry.1 entry.2 := by
  rw [issued_eq_numbered]
  refine List.map_congr_left fun entry among => ?_
  have below := List.snd_lt_add_of_mem_zipIdx among
  have most := length_labels_le client calls
  rw [Nat.mod_eq_of_lt (by omega)]

theorem clients_named_apart (calls : List Call) (fits : calls.length < 2 ^ 64) : NamedApart calls where
  once client := by
    rw [numbered_of_fits fits]
    apply List.Nodup.map
    · rintro ⟨label, number⟩ ⟨other, another⟩ same
      obtain ⟨rfl, rfl⟩ := Client.name_inj same
      rfl
    · apply List.Nodup.of_map Prod.snd
      rw [List.zipIdx_map_snd]
      exact List.nodup_range'
  numbered := numbered_of_fits fits
  unmoved client others same := by
    rw [issued_eq_numbered, issued_eq_numbered, same]

/-- Labels that look like names, or like parts of them. -/
def misleading : List Call :=
  [⟨.producer, "2@a"⟩, ⟨.consumer, "a-2"⟩, ⟨.producer, "a"⟩, ⟨.consumer, "a"⟩, ⟨.consumer, "a-2"⟩,
    ⟨.producer, "@"⟩]

theorem misleading_named_apart :
    misleading.length < 2 ^ 64 ∧ NamedApart misleading ∧
      ({} : InstanceNames).issued .producer misleading = ["1@2@a", "2@a", "3@@"] ∧
      ({} : InstanceNames).issued .consumer misleading = ["a-2-1", "a-2", "a-2-3"] :=
  ⟨by decide, clients_named_apart misleading (by decide), by decide +kernel, by decide +kernel⟩

end InstanceNames
end ChatRelay
