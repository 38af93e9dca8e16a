namespace Schemata

/-! Steps that are taken for all items of a list and succeed for each. -/

universe u v w

variable {ε α : Type u} {β : Type v} {γ : Type w} {step : β → Except ε α} {items : List β}
  {results : List α}

theorem ok_of_bind {α : Type v} {first : Except ε α} {next : α → Except ε β} {result : β}
    (ran : first >>= next = .ok result) :
    ∃ value, first = .ok value ∧ next value = .ok result := by
  cases first with
  | error fault => simp [bind, Except.bind] at ran
  | ok value => exact ⟨value, rfl, ran⟩

theorem mapM_cons_ok {item : β} (taken : (item :: items).mapM step = .ok results) :
    ∃ first rest, step item = .ok first ∧ items.mapM step = .ok rest ∧
      results = first :: rest := by
  rw [List.mapM_cons] at taken
  obtain ⟨first, stepped, taken⟩ := ok_of_bind taken
  obtain ⟨rest, others, taken⟩ := ok_of_bind taken
  exact ⟨first, rest, stepped, others, (Except.ok.inj taken).symm⟩

theorem mem_of_mapM (taken : items.mapM step = .ok results) {result : α}
    (member : result ∈ results) : ∃ item ∈ items, step item = .ok result := by
  induction items generalizing results with
  | nil =>
      rw [List.mapM_nil] at taken
      simp [← Except.ok.inj taken] at member
  | cons item items inductionHypothesis =>
      obtain ⟨first, rest, stepped, others, rfl⟩ := mapM_cons_ok taken
      rcases List.mem_cons.mp member with rfl | later
      · exact ⟨item, List.mem_cons_self, stepped⟩
      · obtain ⟨found, inside, stepped⟩ := inductionHypothesis others later
        exact ⟨found, List.mem_cons_of_mem _ inside, stepped⟩

theorem map_of_mapM {before : β → γ} {after : α → γ}
    (kept : ∀ {item result}, step item = .ok result → after result = before item)
    (taken : items.mapM step = .ok results) : results.map after = items.map before := by
  induction items generalizing results with
  | nil =>
      rw [List.mapM_nil] at taken
      rw [← Except.ok.inj taken]
      rfl
  | cons item items inductionHypothesis =>
      obtain ⟨first, rest, stepped, others, rfl⟩ := mapM_cons_ok taken
      rw [List.map_cons, List.map_cons, kept stepped, inductionHypothesis others]

end Schemata
