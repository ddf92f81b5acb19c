/-! Results of what can fail, one after another. -/

namespace ServiceBroker

variable {ε δ α β γ : Type}

theorem mapError_eq_ok_iff {f : ε → δ} {result : Except ε α} {value : α} :
    result.mapError f = .ok value ↔ result = .ok value := by
  cases result with
  | error e =>
      change Except.error (f e) = .ok value ↔ _
      simp
  | ok found =>
      change Except.ok found = .ok value ↔ _
      simp

theorem exists_of_mapError_eq_error {f : ε → δ} {result : Except ε α} {e : δ}
    (h : result.mapError f = .error e) : ∃ cause, result = .error cause ∧ f cause = e := by
  cases result with
  | error cause => exact ⟨cause, rfl, Except.error.inj h⟩
  | ok value => cases h

theorem cases_of_bind_eq_error {first : Except ε α} {next : α → Except ε β} {e : ε}
    (h : first >>= next = .error e) :
    first = .error e ∨ ∃ value, first = .ok value ∧ next value = .error e := by
  cases first with
  | error cause => exact .inl (congrArg Except.error (Except.error.inj h))
  | ok value => exact .inr ⟨value, rfl, h⟩

theorem exists_of_bind_eq_ok {first : Except ε α} {next : α → Except ε β} {result : β}
    (h : first >>= next = .ok result) : ∃ value, first = .ok value ∧ next value = .ok result := by
  cases first with
  | error e => cases h
  | ok value => exact ⟨value, rfl, h⟩

theorem exists_of_map_eq_ok {f : α → β} {first : Except ε α} {result : β}
    (h : f <$> first = .ok result) : ∃ value, first = .ok value ∧ f value = result := by
  cases first with
  | error e => cases h
  | ok value => exact ⟨value, rfl, Except.ok.inj h⟩

/-- Each of several results comes from one of the inputs. -/
theorem exists_of_mapM_eq_ok {f : α → Except ε β} {inputs : List α} {results : List β}
    (h : inputs.mapM f = .ok results) :
    ∀ result ∈ results, ∃ input ∈ inputs, f input = .ok result := by
  induction inputs generalizing results with
  | nil =>
      cases h
      simp
  | cons input inputs ih =>
      rw [List.mapM_cons] at h
      obtain ⟨first, hFirst, h⟩ := exists_of_bind_eq_ok h
      obtain ⟨rest, hRest, h⟩ := exists_of_bind_eq_ok h
      cases h
      intro result hResult
      rcases List.mem_cons.mp hResult with rfl | hLater
      · exact ⟨input, List.mem_cons_self, hFirst⟩
      · obtain ⟨other, hOther, hFound⟩ := ih hRest result hLater
        exact ⟨other, List.mem_cons_of_mem _ hOther, hFound⟩

/-- Where each input gives its result or one and the same error, the inputs together give their
results or that error. -/
theorem mapM_map_eq_ite {f : β → Except ε γ} (encode : α → β) (decoded : α → γ) {e : ε}
    (fits : α → Prop) [DecidablePred fits] {inputs : List α}
    (h : ∀ input ∈ inputs,
      f (encode input) = if fits input then .ok (decoded input) else .error e) :
    (inputs.map encode).mapM f =
      if ∀ input ∈ inputs, fits input then .ok (inputs.map decoded) else .error e := by
  induction inputs with
  | nil => simp [pure, Except.pure]
  | cons input inputs ih =>
      rw [List.map_cons, List.mapM_cons, h input (by simp),
        ih fun other hOther => h other (by simp [hOther])]
      by_cases hFirst : fits input
      · by_cases hRest : ∀ other ∈ inputs, fits other
        · rw [if_pos hFirst, if_pos hRest, if_pos (List.forall_mem_cons.mpr ⟨hFirst, hRest⟩)]
          rfl
        · have hNone : ¬∀ other ∈ input :: inputs, fits other := fun hAll =>
            hRest (List.forall_mem_cons.mp hAll).2
          rw [if_pos hFirst, if_neg hRest, if_neg hNone]
          rfl
      · have hNone : ¬∀ other ∈ input :: inputs, fits other := fun hAll =>
          hFirst (List.forall_mem_cons.mp hAll).1
        rw [if_neg hFirst, if_neg hNone]
        rfl

end ServiceBroker
