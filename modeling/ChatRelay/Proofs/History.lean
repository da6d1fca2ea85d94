namespace ChatRelay

/-- Of events that go on quietly after a mark, one more is quiet as well, or is the mark. -/
theorem exists_split_concat {α : Type} {events : List α} {event mark : α} {marked : List α → Prop}
    {quiet : α → Prop} :
    (∃ earlier later, events ++ [event] = earlier ++ mark :: later ∧ marked earlier ∧ ∀ event ∈ later, quiet event) ↔
      ((∃ earlier later, events = earlier ++ mark :: later ∧ marked earlier ∧ ∀ event ∈ later, quiet event) ∧
          quiet event) ∨
        event = mark ∧ marked events := by
  constructor
  · rintro ⟨earlier, later, split, there, still⟩
    rcases List.eq_nil_or_concat later with rfl | ⟨later, last, rfl⟩
    · obtain ⟨rfl, same⟩ := List.append_inj' split rfl
      exact .inr ⟨List.singleton_inj.mp same, there⟩
    · rw [List.concat_eq_append, ← List.cons_append, ← List.append_assoc] at split
      obtain ⟨rfl, same⟩ := List.append_inj' split rfl
      rw [List.concat_eq_append, ← List.singleton_inj.mp same] at still
      obtain ⟨still, last⟩ := List.forall_mem_append.mp still
      exact .inl ⟨⟨earlier, later, rfl, there, still⟩, last event List.mem_cons_self⟩
  · rintro (⟨⟨earlier, later, rfl, there, still⟩, last⟩ | ⟨rfl, there⟩)
    · refine ⟨earlier, later ++ [event], by simp, there, List.forall_mem_append.mpr ⟨still, ?_⟩⟩
      simpa using last
    · exact ⟨events, [], rfl, there, by simp⟩

end ChatRelay
