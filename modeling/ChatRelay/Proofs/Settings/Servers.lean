import Mathlib.Data.List.Forall2
import ChatRelay.Proofs.Settings.Fields
import ChatRelay.Proofs.Settings.Validation

namespace ChatRelay.Settings

variable {lookup : Lookup} {settings : Settings} {list : String} {servers : List String}

/-- Servers that a list with commas can tell apart. -/
def Tidy (servers : List String) : Prop :=
  ∀ server ∈ servers, server ≠ "" ∧ ',' ∉ server.toList ∧ Text.Trimmed server.toList

/-- The pieces of a list in which something is written. -/
def written (list : String) : List (List Char) :=
  (Text.pieces ',' list.toList).filter fun piece => ¬ Text.Blank piece

theorem readServers_eq (list : String) :
    readServers list = (written list).map fun piece => String.ofList (Text.trimBlanks piece) := by
  have kept (piece : List Char) : (!(Text.trimBlanks piece).isEmpty) = decide (¬ Text.Blank piece) := by
    rw [Bool.eq_iff_iff]
    simp [Text.trimBlanks_eq_nil_iff]
  rw [readServers, List.filter_map, List.map_map, written]
  simp only [Function.comp_def, kept]

theorem forall₂_readServers (list : String) :
    List.Forall₂ (fun piece server => Text.Trims piece server.toList) (written list) (readServers list) := by
  rw [readServers_eq, List.forall₂_map_right_iff, List.forall₂_same]
  intro piece _
  rw [String.toList_ofList]
  exact Text.trims_trimBlanks piece

theorem tidy_readServers (list : String) : Tidy (readServers list) := by
  rw [readServers_eq]
  intro server among
  obtain ⟨piece, written, rfl⟩ := List.mem_map.mp among
  obtain ⟨part, filled⟩ := List.mem_filter.mp written
  rw [String.toList_ofList]
  refine ⟨?_, fun comma => ?_, Text.trimmed_trimBlanks piece⟩
  · simpa [← Text.trimBlanks_eq_nil_iff] using filled
  · exact Text.notMem_of_mem_pieces part (Text.mem_of_mem_trimBlanks comma)

theorem Tidy.filled (tidy : Tidy servers) {server : String} (among : server ∈ servers) :
    ¬ Text.Blank server.toList := by
  obtain ⟨some, _, trimmed⟩ := tidy server among
  rw [← Text.trimBlanks_eq_nil_iff, trimmed.trimBlanks_eq]
  simpa using some

/-- Tidy servers are read back from the list that they are put into. -/
theorem readServers_intercalate (tidy : Tidy servers) : readServers (",".intercalate servers) = servers := by
  cases servers with
  | nil => rfl -- an empty text is one piece, and that is blank
  | cons first others =>
    have split : Text.pieces ',' (",".intercalate (first :: others)).toList =
        (first :: others).map String.toList := by
      refine Text.pieces_eq_iff.mpr ⟨by simp, ?_, ?_⟩
      · exact List.forall_mem_map.mpr fun server among => (tidy server among).2.1
      · rw [String.toList_intercalate]
        rfl
    have filled : written (",".intercalate (first :: others)) = (first :: others).map String.toList := by
      rw [written, split]
      exact List.filter_eq_self.mpr (List.forall_mem_map.mpr fun server among => by simpa using tidy.filled among)
    have kept : ∀ server ∈ first :: others, String.ofList (Text.trimBlanks server.toList) = server := by
      intro server among
      rw [(tidy server among).2.2.trimBlanks_eq, String.ofList_toList]
    rw [readServers_eq, filled, List.map_map]
    exact (List.map_congr_left kept).trans (List.map_id _)

theorem blankServers_mem_iff : Violation.blankServers ∈ settings.violations ↔ ¬ settings.Meets .servers := by
  have told : Violation.blankServers ∈ settings.violations ↔
      Condition.servers ∈ settings.violations.map Violation.condition := by
    refine ⟨fun among => List.mem_map.mpr ⟨_, among, rfl⟩, fun among => ?_⟩
    obtain ⟨violation, among, kind⟩ := List.mem_map.mp among
    cases violation <;> first | exact among | cases kind
  rw [told, (covers_violations settings).each]
  simp [Condition.mem_all]

/-- Tidy servers are refused only if there are none. -/
theorem blankServers_mem_iff_of_tidy (tidy : Tidy settings.bootstrapServers) :
    Violation.blankServers ∈ settings.violations ↔ settings.bootstrapServers = [] := by
  have met : settings.Meets .servers ↔ settings.bootstrapServers ≠ [] := and_iff_left fun _ => tidy.filled
  rw [blankServers_mem_iff, met, not_not]

/-- How the servers of a list are read. -/
structure NormalForm (lookup : Lookup) (list : String) (settings : Settings) : Prop where
  pieces : ∀ parts, Text.pieces ',' list.toList = parts ↔ Text.Separates ',' list.toList parts
  /-- They are the pieces that are not blank, trimmed and in their order. -/
  servers : List.Forall₂ (fun piece server => Text.Trims piece server.toList) (written list)
    settings.bootstrapServers
  tidy : Tidy settings.bootstrapServers
  /-- Where the servers are looked up as one value they are read as they are. -/
  again : ∀ other others, other "BACKPLANE_BOOTSTRAP_SERVERS" = some settings.joinedServers →
    read other = .ok others → others.bootstrapServers = settings.bootstrapServers
  kept : read (Function.update lookup "BACKPLANE_BOOTSTRAP_SERVERS" (some settings.joinedServers)) = .ok settings
  refused : Violation.blankServers ∈ settings.violations ↔
    ∀ piece ∈ Text.pieces ',' list.toList, Text.Blank piece

theorem bootstrapServers_eq_of_read (given : lookup "BACKPLANE_BOOTSTRAP_SERVERS" = some list)
    (reads : read lookup = .ok settings) : settings.bootstrapServers = readServers list := by
  have holds := holds_of_read reads .servers
  rwa [Entry.Holds, Entry.name, given] at holds

theorem servers_in_normal_form (given : lookup "BACKPLANE_BOOTSTRAP_SERVERS" = some list)
    (reads : read lookup = .ok settings) : NormalForm lookup list settings := by
  have servers := bootstrapServers_eq_of_read given reads
  have tidy : Tidy settings.bootstrapServers := servers ▸ tidy_readServers list
  have back : readServers settings.joinedServers = settings.bootstrapServers := readServers_intercalate tidy
  exact {
    pieces parts := Text.pieces_eq_iff
    servers := servers ▸ forall₂_readServers list
    tidy := tidy
    again other others put reads := (bootstrapServers_eq_of_read put reads).trans back
    kept := by
      obtain ⟨holds, alike⟩ := read_eq_ok_iff.mp reads
      refine read_eq_ok_iff.mpr ⟨fun entry => ?_, alike⟩
      by_cases same : entry = .servers
      · subst same
        rw [Entry.Holds, Entry.name, Function.update_self]
        exact back.symm
      · have different : entry.name ≠ "BACKPLANE_BOOTSTRAP_SERVERS" := fun named => same (Entry.name_inj named)
        rw [Entry.Holds, Function.update_of_ne different]
        exact holds entry
    refused := by
      rw [blankServers_mem_iff_of_tidy tidy, servers, readServers_eq, List.map_eq_nil_iff, written,
        List.filter_eq_nil_iff]
      simp }

theorem untidy_servers_in_normal_form :
    NormalForm (fun name => if name = "BACKPLANE_BOOTSTRAP_SERVERS" then some " a ,, b\u00a0,," else none)
      " a ,, b\u00a0,," { bootstrapServers := ["a", "b"] } :=
  servers_in_normal_form rfl rfl

end ChatRelay.Settings
