import ChatRelay.Proofs.Exchange
import ChatRelay.Proofs.Partition.Known

namespace ChatRelay

/-- A router that was set up reaches every user on its messages topic. -/
theorem Outlet.target?_prepare (outlet : Outlet) (table : PartitionTable) (user : UserId) :
    ∃ target, outlet.router.target? (outlet.router.prepare table) (outlet.router.messagesTopic, user) =
      some target := by
  have small : outlet.router.partitions.toNat < 0x80000000 := Nat.lt_succ_of_le outlet.signed
  obtain ⟨natural, below⟩ := Placement.index_lt user outlet.positive small
  have counted := table.le_count_ensure outlet.router.messagesTopic small
  obtain ⟨target, known⟩ := PartitionTable.exists_get? natural (by omega :
    (Placement.index user outlet.router.partitions).toNat <
      (table.ensure outlet.router.messagesTopic outlet.router.partitions).2.count outlet.router.messagesTopic)
  exact ⟨target, PartitionTable.get?_ensure known ..⟩

namespace Exchange

variable {exchange : Exchange} {member : Nat}

/-- What a move makes of a site. -/
inductive Turns (place : Site) : Site → Prop where
  | kept : Turns place place
  | ensured (topic : String) (count : UInt32) :
      Turns place { place with table := (place.table.ensure topic count).2 }
  | prepared (router : Router) : Turns place { place with table := router.prepare place.table }
  | attended (change : SessionRegistry.Change) :
      Turns place { place with sessions := place.sessions.change change }
  | delivered (user : UserId) (envelope : Envelope) :
      Turns place { place with sessions := (place.sessions.deliver user envelope).2 }

theorem turns_modifySite (number : Nat) (change : Site → Site)
    (turns : ∀ place, Turns place (change place)) (site : Nat) :
    Turns (exchange.siteAt site) ((exchange.modifySite number change).siteAt site) := by
  rw [siteAt_modifySite]
  split
  · rename_i same
    exact same ▸ turns _
  · exact .kept

theorem turns_step (exchange : Exchange) (move : Move) (site : Nat) :
    Turns (exchange.siteAt site) ((exchange.step move).siteAt site) := by
  have leads := exchange.leads_step move
  generalize exchange.step move = next at leads
  cases leads with
  | idle | armed | merged | acted => exact .kept
  | ensured => exact turns_modifySite _ _ (fun _ => .ensured _ _) site
  | attended => exact turns_modifySite _ _ (fun _ => .attended _) site
  | routed =>
    rw [publish_eq]
    exact .kept
  | @engaged duty =>
    cases duty with
    | receivers number outlet => exact turns_modifySite number _ (fun _ => .prepared outlet.router) site
    | chats => exact .kept
  | @pushed _ number envelope =>
    exact turns_modifySite number _ (fun _ => .delivered envelope.recipient envelope) site
  | acknowledged =>
    rw [acknowledge_eq]
    exact .kept

theorem orderly_after (moves : List Move) (site : Nat) : ((after moves).siteAt site).sessions.Orderly := by
  induction moves using List.reverseRecOn with
  | nil => simpa [after, run, siteAt] using SessionRegistry.orderly_empty
  | append_singleton moves move ih =>
    rw [after_concat]
    have turns := (after moves).turns_step move site
    generalize ((after moves).step move).siteAt site = next at turns
    cases turns with
    | kept | ensured | prepared => exact ih
    | attended change => exact ih.change change
    | delivered user envelope => exact ih.deliver user envelope

theorem Turns.get? {place next : Site} (turns : Turns place next)
    (known : place.table.get? topic index = some target) : next.table.get? topic index = some target := by
  cases turns with
  | kept | attended | delivered => exact known
  | ensured => exact PartitionTable.get?_ensure known ..
  | prepared => exact PartitionTable.get?_ensure (PartitionTable.get?_ensure known ..) ..

/-- The routers of all receivers reach every user. -/
def Served (exchange : Exchange) : Prop :=
  ∀ (member site : Nat) outlet, exchange.duties[member]? = some (.receivers site outlet) → ∀ user,
    ∃ target, outlet.router.target? (exchange.siteAt site).table (outlet.router.messagesTopic, user) =
      some target

/-- A duty is kept, or new; the router of new receivers made its partitions known. -/
theorem duties_step (exchange : Exchange) (move : Move)
    (found : (exchange.step move).duties[member]? = some duty) :
    exchange.duties[member]? = some duty ∨
      ∀ site outlet, duty = .receivers site outlet →
        ((exchange.step move).siteAt site).table = outlet.router.prepare (exchange.siteAt site).table := by
  have leads := exchange.leads_step move
  generalize exchange.step move = next at leads found
  cases leads with
  | idle | ensured | attended | armed | pushed | merged | acted => exact .inl found
  | routed =>
    rw [publish_eq] at found
    exact .inl found
  | acknowledged =>
    rw [acknowledge_eq] at found
    exact .inl found
  | @engaged added name group maxRecords wanted =>
    have inserted : (exchange.duties.insert
      (exchange.crew.step (.join name group maxRecords wanted)).cluster.broker.lastMember added)[member]? =
        some duty := found
    rw [Std.ExtTreeMap.getElem?_insert] at inserted
    split at inserted
    · cases inserted
      refine .inr ?_
      rintro site outlet rfl
      have prepared := siteAt_modifySite exchange site
        (fun place => { place with table := outlet.router.prepare place.table }) site
      rw [if_pos rfl] at prepared
      exact congrArg Site.table prepared
    · exact .inl inserted

theorem served_after (moves : List Move) : (after moves).Served := by
  induction moves using List.reverseRecOn with
  | nil =>
    intro member site outlet duty
    simp [after, run] at duty
  | append_singleton moves move ih =>
    rw [after_concat]
    intro member site outlet duty user
    rcases duties_step _ move duty with before | prepared
    · obtain ⟨target, known⟩ := ih member site outlet before user
      exact ⟨target, ((after moves).turns_step move site).get? known⟩
    · rw [prepared site outlet rfl]
      exact outlet.target?_prepare _ user

end Exchange
end ChatRelay
