import Mathlib.Data.List.Induction
import ChatRelay.Proofs.Broker.Appending
import ChatRelay.Proofs.Chat.Gathering
import ChatRelay.Proofs.Crew.Passing
import ChatRelay.Proofs.Mailing
import ChatRelay.Proofs.Sessions.Reaching

/-! All parts of the relay at work. Instances share a broker and a chat store, and each has its own sessions
and known partitions. Messages are routed, receivers push what they read and publish receipts, and chat state
is gathered, while sessions come and go; each of these takes its steps one at a time, in any order. -/
namespace ChatRelay

/-- The envelope that a member's processor has before itself. -/
def Crew.facing? (crew : Crew) (member : Nat) : Option Envelope := do
  let task ← crew.tasks[member]?
  let _ ← crew.cluster.workers[member]?
  match task.phase with
  | .handling _ (record :: _) => record.body.toOption
  | _ => none

theorem Crew.facing?_eq_some_iff {crew : Crew} {member : Nat} {envelope : Envelope} :
    crew.facing? member = some envelope ↔
      ∃ task worker batch record rest, crew.tasks[member]? = some task ∧
        crew.cluster.workers[member]? = some worker ∧ task.phase = .handling batch (record :: rest) ∧
        record.body = .ok envelope := by
  simp only [facing?, bind, Option.bind_eq_some_iff]
  constructor
  · rintro ⟨task, is, worker, found, facing⟩
    split at facing
    · rename_i batch record rest handling
      cases body : record.body with
      | error fault => simp [body, Except.toOption] at facing
      | ok other =>
        simp only [body, Except.toOption, Option.some.injEq] at facing
        exact ⟨task, worker, batch, record, rest, is, found, handling, facing ▸ body⟩
    · cases facing
  · rintro ⟨task, worker, batch, record, rest, is, found, handling, body⟩
    exact ⟨task, is, worker, found, by simp [handling, body, Except.toOption]⟩

/-- A router that has a partition, and no more than the signed range has indices for. -/
structure Outlet where
  router : Router
  positive : 0 < router.partitions.toNat
  signed : router.partitions.toNat ≤ 0x7fffffff

structure Site where
  table : PartitionTable := {}
  sessions : SessionRegistry := {}

/-- What the processor of a loop does. -/
inductive Duty where
  /-- It pushes to the sessions of a site, and acknowledges through a router. -/
  | receivers (site : Nat) (outlet : Outlet)
  /-- It merges into the chat store what the envelopes of a topic say. -/
  | chats (source : ChatSource)

/-- What receivers did, in the order in which they did it. -/
inductive Posting where
  | pushed (member : Nat) (envelope : Envelope) (outcome : DeliveryOutcome)
  /-- A receipt was published, with the report that came of it; without one, nothing was published. -/
  | acknowledged (member : Nat) (receipt : Envelope) (report : Option DeliveryReport)

structure Exchange extends Gathering where
  sites : Std.ExtTreeMap Nat Site := ∅
  duties : Std.ExtTreeMap Nat Duty := ∅
  /-- The receipt that a member's processor has yet to publish. -/
  owed : Std.ExtTreeMap Nat Envelope := ∅
  postings : List Posting := []

namespace Exchange

inductive Move where
  /-- Partitions become known at a site. -/
  | ensure (site : Nat) (topic : String) (count : UInt32)
  /-- One of the publications of a message that is routed. -/
  | route (site : Nat) (outlet : Outlet) (message : Message) (destination : Nat)
  /-- Something happens at the sessions of a site. -/
  | attend (site : Nat) (change : SessionRegistry.Change)
  | failWrites (count : Nat)
  /-- A loop with a duty is set up. -/
  | engage (duty : Duty) (id group : String) (maxRecords : Nat) (topics : List String)
  /-- The processor of a receiver pushes the envelope before it. -/
  | push (member : Nat)
  /-- It publishes the receipt that it owes. -/
  | acknowledge (member : Nat)
  /-- The processor of a gatherer merges the next update, or answers. -/
  | merge (member : Nat)
  /-- Any other move of the loops and the broker. -/
  | other (move : Crew.Move)

variable (exchange : Exchange)

def topics : Topics := exchange.crew.cluster.broker.topics

def siteAt (number : Nat) : Site := exchange.sites.getD number {}

def modifySite (number : Nat) (change : Site → Site) : Exchange :=
  { exchange with sites := exchange.sites.insert number (change (exchange.siteAt number)) }

/-- Publishes an envelope at one of its destinations. Nothing is published where no partition is known. -/
def publish (site : Nat) (router : Router) (envelope : Envelope) (destination : Nat) :
    Option DeliveryReport × Exchange :=
  match (router.destinations envelope)[destination]?.bind (router.target? (exchange.siteAt site).table) with
  | none => (none, exchange)
  | some target =>
    let report := (exchange.crew.cluster.broker.publish router.producer envelope target).1
    match envelope.encode with
    | .ok data => (some report, { exchange with crew := exchange.crew.step (.append target data) })
    | .error _ => (some report, exchange)

/-- Pushes an envelope to the sessions of its recipient; with that the loop is past its record. A message that
reached a session is to be acknowledged, before the loop goes on. -/
def push (member site : Nat) (envelope : Envelope) : Exchange :=
  let (outcome, sessions) := (exchange.siteAt site).sessions.deliver envelope.recipient envelope
  { exchange.modifySite site fun place => { place with sessions } with
    crew := exchange.crew.step (.take member (.process (.ok ())))
    owed := match Envelope.receipt? outcome envelope with
      | some receipt => exchange.owed.insert member receipt
      | none => exchange.owed
    postings := exchange.postings ++ [.pushed member envelope outcome] }

/-- Publishes a receipt that is owed, at its only destination. -/
def acknowledge (member site : Nat) (router : Router) (receipt : Envelope) : Exchange :=
  let (report, exchange) := exchange.publish site router receipt 0
  { exchange with
    owed := exchange.owed.erase member
    postings := exchange.postings ++ [.acknowledged member receipt report] }

/-- Sets up a loop. The router of receivers makes its partitions known. -/
def engage (duty : Duty) (id group : String) (maxRecords : Nat) (topics : List String) : Exchange :=
  let crew := exchange.crew.step (.join id group maxRecords topics)
  let prepared := match duty with
    | .receivers site outlet =>
      exchange.modifySite site fun place => { place with table := outlet.router.prepare place.table }
    | .chats _ => exchange
  { prepared with crew, duties := exchange.duties.insert crew.cluster.broker.lastMember duty }

def gather (member : Nat) (updates : List ChatUpdate) : Exchange :=
  { exchange with toGathering := exchange.toGathering.merge member updates }

/-- No other records are appended, processors do their duty, and a loop that owes a receipt does nothing else
before. -/
def allows : Crew.Move → Bool
  | .append .. => false
  | .take member (.process _) => member ∉ exchange.duties
  | .take member _ | .synchronise member | .leave member => member ∉ exchange.owed
  | .createTopic .. | .failPublishes _ | .join .. => true

/-- A move of the loops and the broker; what a member that leaves has yet to merge is left undone. -/
def act (move : Crew.Move) : Exchange :=
  { exchange with
    crew := exchange.crew.step move
    unmerged := match move with
      | .leave member => exchange.unmerged.erase member
      | _ => exchange.unmerged }

def step : Move → Exchange
  | .ensure site topic count =>
    exchange.modifySite site fun place => { place with table := (place.table.ensure topic count).2 }
  | .route site outlet message destination =>
    (exchange.publish site outlet.router (.message message) destination).2
  | .attend site change =>
    exchange.modifySite site fun place => { place with sessions := place.sessions.change change }
  | .failWrites count => { exchange with store := exchange.store.failWrites count }
  | .engage duty id group maxRecords topics => exchange.engage duty id group maxRecords topics
  | .push member =>
    match exchange.duties[member]?, exchange.owed[member]?, exchange.crew.facing? member with
    | some (.receivers site _), none, some envelope => exchange.push member site envelope
    | _, _, _ => exchange
  | .acknowledge member =>
    match exchange.duties[member]?, exchange.owed[member]? with
    | some (.receivers site outlet), some receipt => exchange.acknowledge member site outlet.router receipt
    | _, _ => exchange
  | .merge member =>
    match exchange.duties[member]?, exchange.crew.facing? member with
    | some (.chats source), some envelope => exchange.gather member (source.updates envelope)
    | _, _ => exchange
  | .other move => if exchange.allows move then exchange.act move else exchange

def run (moves : List Move) : Exchange := moves.foldl step exchange

def after (moves : List Move) : Exchange := run {} moves

@[simp] theorem after_concat (moves : List Move) (move : Move) :
    after (moves ++ [move]) = (after moves).step move := by
  simp [after, run]

@[simp] theorem siteAt_modifySite (exchange : Exchange) (number : Nat) (change : Site → Site) (other : Nat) :
    (exchange.modifySite number change).siteAt other =
      if number = other then change (exchange.siteAt number) else exchange.siteAt other := by
  unfold modifySite siteAt
  dsimp only
  rw [Std.ExtTreeMap.getD_insert]
  by_cases same : number = other <;> simp [same]

/-- The processor of a member is about to push an envelope to the sessions of a site. -/
structure Pushing (exchange : Exchange) (member site : Nat) (envelope : Envelope) : Prop where
  duty : ∃ outlet, exchange.duties[member]? = some (.receivers site outlet)
  free : exchange.owed[member]? = none
  facing : exchange.crew.facing? member = some envelope

inductive Leads (exchange : Exchange) : Move → Exchange → Prop where
  | idle : Leads exchange move exchange
  | ensured : Leads exchange (.ensure site topic count)
      (exchange.modifySite site fun place => { place with table := (place.table.ensure topic count).2 })
  | routed : Leads exchange (.route site outlet message destination)
      (exchange.publish site outlet.router (.message message) destination).2
  | attended : Leads exchange (.attend site change)
      (exchange.modifySite site fun place => { place with sessions := place.sessions.change change })
  | armed : Leads exchange (.failWrites count) { exchange with store := exchange.store.failWrites count }
  | engaged : Leads exchange (.engage duty name group maxRecords wanted)
      (exchange.engage duty name group maxRecords wanted)
  | pushed (pushing : exchange.Pushing member site envelope) :
      Leads exchange (.push member) (exchange.push member site envelope)
  | acknowledged (duty : exchange.duties[member]? = some (.receivers site outlet))
      (due : exchange.owed[member]? = some receipt) :
      Leads exchange (.acknowledge member) (exchange.acknowledge member site outlet.router receipt)
  | merged (duty : exchange.duties[member]? = some (.chats source))
      (facing : exchange.crew.facing? member = some envelope) :
      Leads exchange (.merge member) (exchange.gather member (source.updates envelope))
  | acted (allowed : exchange.allows made) : Leads exchange (.other made) (exchange.act made)

inductive Publishes (exchange : Exchange) : Move → Envelope → Prop where
  | route : Publishes exchange (.route site outlet message destination) (.message message)
  | acknowledge (due : exchange.owed[member]? = some receipt) :
      Publishes exchange (.acknowledge member) receipt

variable {exchange} {member site destination : Nat} {envelope : Envelope} {router : Router}

theorem step_push (pushing : exchange.Pushing member site envelope) :
    exchange.step (.push member) = exchange.push member site envelope := by
  obtain ⟨outlet, duty⟩ := pushing.duty
  simp only [step, duty, pushing.free, pushing.facing]

theorem leads_step (exchange : Exchange) (move : Move) : exchange.Leads move (exchange.step move) := by
  cases move with
  | ensure => exact .ensured
  | route => exact .routed
  | attend => exact .attended
  | failWrites => exact .armed
  | engage => exact .engaged
  | push member =>
    simp only [step]
    split
    · rename_i duty free facing
      exact .pushed ⟨⟨_, duty⟩, free, facing⟩
    · exact .idle
  | acknowledge member =>
    simp only [step]
    split
    · rename_i duty due
      exact .acknowledged duty due
    · exact .idle
  | merge member =>
    simp only [step]
    split
    · rename_i duty facing
      exact .merged duty facing
    · exact .idle
  | other made =>
    simp only [step]
    split
    · rename_i allowed
      exact .acted allowed
    · exact .idle

theorem publish_cases (exchange : Exchange) (site : Nat) (router : Router) (envelope : Envelope)
    (destination : Nat) :
    (exchange.publish site router envelope destination).2 = exchange ∨
      ∃ target data, envelope.encode = .ok data ∧
        (exchange.publish site router envelope destination).2 =
          { exchange with crew := exchange.crew.step (.append target data) } := by
  unfold publish
  split
  · exact .inl rfl
  · rename_i target _
    cases written : envelope.encode with
    | error failure => exact .inl rfl
    | ok data => exact .inr ⟨target, data, rfl, rfl⟩

theorem publish_eq (exchange : Exchange) (site : Nat) (router : Router) (envelope : Envelope)
    (destination : Nat) :
    (exchange.publish site router envelope destination).2 =
      { exchange with crew := (exchange.publish site router envelope destination).2.crew } := by
  rcases exchange.publish_cases site router envelope destination with same | ⟨_, _, _, published⟩
  · rw [same]
  · rw [published]

theorem acknowledge_eq (exchange : Exchange) (member site : Nat) (router : Router) (receipt : Envelope) :
    exchange.acknowledge member site router receipt =
      { exchange with
        crew := (exchange.publish site router receipt 0).2.crew
        owed := exchange.owed.erase member
        postings := exchange.postings ++
          [.acknowledged member receipt (exchange.publish site router receipt 0).1] } := by
  unfold acknowledge
  dsimp only
  rw [publish_eq]

theorem owed_push (exchange : Exchange) (member site : Nat) (envelope : Envelope) :
    (exchange.push member site envelope).owed =
      match Envelope.receipt? ((exchange.siteAt site).sessions.deliver envelope.recipient envelope).1
        envelope with
      | some receipt => exchange.owed.insert member receipt
      | none => exchange.owed := rfl

theorem postings_push (exchange : Exchange) (member site : Nat) (envelope : Envelope) :
    (exchange.push member site envelope).postings =
      exchange.postings ++ [.pushed member envelope
        ((exchange.siteAt site).sessions.deliver envelope.recipient envelope).1] := rfl

theorem siteAt_push (exchange : Exchange) (member site : Nat) (envelope : Envelope) :
    (exchange.push member site envelope).siteAt site =
      { table := (exchange.siteAt site).table
        sessions := ((exchange.siteAt site).sessions.deliver envelope.recipient envelope).2 } := by
  have pushed := siteAt_modifySite exchange site (fun place =>
    { place with sessions := (place.sessions.deliver envelope.recipient envelope).2 }) site
  rw [if_pos rfl] at pushed
  exact pushed

/-- Where the partition is known, the broker publishes, and gives the report. -/
theorem publish_known {target : Partition}
    (known : (router.destinations envelope)[destination]?.bind
      (router.target? (exchange.siteAt site).table) = some target) :
    (exchange.publish site router envelope destination).1 =
        some (exchange.crew.cluster.broker.publish router.producer envelope target).1 ∧
      (exchange.publish site router envelope destination).2.crew.cluster.broker =
        (exchange.crew.cluster.broker.publish router.producer envelope target).2 := by
  unfold publish
  rw [known]
  dsimp only
  cases written : envelope.encode with
  | error failure => exact ⟨rfl, by rw [Broker.publish_of_fault _ _ _ written]⟩
  | ok data =>
    refine ⟨rfl, ?_⟩
    rw [Broker.publish_of_wire _ _ _ written]
    rfl

/-- A move makes at most one move of the crew, and appends only what it publishes. -/
theorem crew_step (exchange : Exchange) (move : Move) :
    (exchange.step move).crew = exchange.crew ∨
      ∃ made, (exchange.step move).crew = exchange.crew.step made ∧
        ∀ target data, made = .append target data →
          ∃ envelope, exchange.Publishes move envelope ∧ envelope.encode = .ok data := by
  have leads := exchange.leads_step move
  generalize exchange.step move = next at leads
  cases leads with
  | idle | ensured | attended | armed => exact .inl rfl
  | @routed site outlet message destination =>
    rcases exchange.publish_cases site outlet.router (.message message) destination with
      same | ⟨target, data, written, published⟩
    · exact .inl (congrArg (·.crew) same)
    · refine .inr ⟨.append target data, congrArg (·.crew) published, ?_⟩
      rintro _ _ ⟨⟩
      exact ⟨_, .route, written⟩
  | @engaged duty name group maxRecords wanted =>
    exact .inr ⟨.join name group maxRecords wanted, rfl, by simp⟩
  | @pushed member => exact .inr ⟨.take member (.process (.ok ())), rfl, by simp⟩
  | @acknowledged member receipt site outlet duty due =>
    rw [acknowledge_eq]
    rcases exchange.publish_cases site outlet.router receipt 0 with
      same | ⟨target, data, written, published⟩
    · exact .inl (congrArg (·.crew) same)
    · refine .inr ⟨.append target data, congrArg (·.crew) published, ?_⟩
      rintro _ _ ⟨⟩
      exact ⟨_, .acknowledge due, written⟩
  | @merged member source envelope duty facing =>
    unfold gather Gathering.merge
    dsimp only
    split
    · exact .inr ⟨.take member (.process (.ok ())), rfl, by simp⟩
    · split
      · exact .inl rfl
      · rename_i failure _ _
        exact .inr ⟨.take member (.process (.error failure)), rfl, by simp⟩
  | @acted made allowed =>
    refine .inr ⟨made, rfl, ?_⟩
    rintro _ _ rfl
    simp [allows] at allowed

theorem sound_after (moves : List Move) : (after moves).crew.Sound := by
  induction moves using List.reverseRecOn with
  | nil => exact Crew.sound_empty
  | append_singleton moves move ih =>
    rw [after_concat]
    rcases (after moves).crew_step move with same | ⟨made, stepped, _⟩
    · rw [same]
      exact ih
    · rw [stepped]
      exact ih.step made

theorem within_step (exchange : Exchange) (move : Move) :
    exchange.topics.Within (exchange.step move).topics := by
  unfold topics
  rcases exchange.crew_step move with same | ⟨made, stepped, _⟩
  · rw [same]
    exact .refl _
  · rw [stepped]
    exact exchange.crew.within_step made

theorem within_after {earlier : List Move} (part : earlier <+: moves) :
    (after earlier).topics.Within (after moves).topics := by
  induction moves using List.reverseRecOn with
  | nil =>
    cases List.prefix_nil.mp part
    exact .refl _
  | append_singleton moves move ih =>
    rcases List.prefix_concat_iff.mp part with rfl | part
    · exact .refl _
    · rw [after_concat]
      exact (ih part).trans (within_step _ move)

end Exchange
end ChatRelay
