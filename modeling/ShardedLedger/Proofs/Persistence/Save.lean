import ShardedLedger.Proofs.Persistence.Load

namespace ShardedLedger

namespace Save

section Start

variable {ledger : Ledger}

theorem start_cases (ledger : Ledger) :
    (ledger.saved = [] ∧ start ledger = .done .success) ∨
      (ledger.saved ≠ [] ∧ start ledger = .waiting (.reading ledger.saved)) := by
  unfold start
  split
  next hempty => exact .inl ⟨List.isEmpty_iff.mp hempty, rfl⟩
  next hentries => exact .inr ⟨mt List.isEmpty_iff.mpr hentries, rfl⟩

theorem start_eq_done_iff {result : SaveResult} :
    start ledger = .done result ↔ ledger.saved = [] ∧ result = .success := by
  rcases start_cases ledger with ⟨hempty, hstart⟩ | ⟨hentries, hstart⟩
  · simp [hstart, hempty, eq_comm]
  · simp [hstart, hentries]

theorem eq_reading_of_start {save : Save} (h : start ledger = .waiting save) :
    save = .reading ledger.saved := by
  rcases start_cases ledger with ⟨-, hstart⟩ | ⟨-, hstart⟩ <;> rw [hstart] at h <;> cases h
  rfl

end Start

section Next

variable (layout : Layout) (backend : Backend)

theorem afterRead_ok (store : Store) (entries : List (Key × Account)) :
    afterRead layout entries (.ok ((valueKeys layout entries).map store.value?)) =
      if (Plan.against layout store entries).badKeys ≠ [] then
        .done (compared (.dataInconsistency
          ((Plan.against layout store entries).badKeys.map (·.text))))
      else if (Plan.against layout store entries).commands = [] then .done (compared .success)
      else .waiting (.writing (Plan.against layout store entries)) :=
  if_congr (by simp [Plan.against]) rfl (if_congr List.isEmpty_iff rfl rfl)

-- All that a save can come to with its answer.
inductive Comes : Save → Backend × Next → Prop where
  | unread (entries : List (Key × Account)) (hdown : backend.unavailable = true) :
      Comes (.reading entries)
        (backend, .done ((SaveResult.backendFailed .unavailable).record Latency.readPhase))
  | refused (entries : List (Key × Account)) (hup : backend.unavailable = false)
      (hbad : (Plan.against layout backend.store entries).badKeys ≠ []) :
      Comes (.reading entries) (backend, .done (compared (.dataInconsistency
        ((Plan.against layout backend.store entries).badKeys.map (·.text)))))
  | upToDate (entries : List (Key × Account)) (hup : backend.unavailable = false)
      (hbad : (Plan.against layout backend.store entries).badKeys = [])
      (hcommands : (Plan.against layout backend.store entries).commands = []) :
      Comes (.reading entries) (backend, .done (compared .success))
  | planned (entries : List (Key × Account)) (hup : backend.unavailable = false)
      (hbad : (Plan.against layout backend.store entries).badKeys = [])
      (hcommands : (Plan.against layout backend.store entries).commands ≠ []) :
      Comes (.reading entries)
        (backend, .waiting (.writing (Plan.against layout backend.store entries)))
  | unwritten (plan : Plan) (hdown : backend.unavailable = true) :
      Comes (.writing plan) (backend, .done (afterWrite plan (.error .unavailable)))
  | committed (plan : Plan) (hup : backend.unavailable = false) :
      Comes (.writing plan) ({ backend with store := backend.store.applyAll plan.commands },
        .done (afterWrite plan (.ok ())))

variable {layout backend} {save : Save} {next : Backend × Next}

theorem Comes.next_eq (h : Comes layout backend save next) : save.next layout backend = next := by
  have hanswered (hup : backend.unavailable = false) (entries : List (Key × Account)) :
      (reading entries).next layout backend = (backend, afterRead layout entries
        (.ok ((valueKeys layout entries).map backend.store.value?))) := by
    simp [Save.next, Backend.values, Backend.answer, hup]
  cases h with
  | unread entries hdown => simp [Save.next, Backend.values, Backend.answer, hdown, afterRead]
  | refused entries hup hbad => rw [hanswered hup, afterRead_ok, if_pos hbad]
  | upToDate entries hup hbad hcommands =>
      rw [hanswered hup, afterRead_ok, if_neg (not_not.mpr hbad), if_pos hcommands]
  | planned entries hup hbad hcommands =>
      rw [hanswered hup, afterRead_ok, if_neg (not_not.mpr hbad), if_neg hcommands]
  | unwritten plan hdown => simp [Save.next, Backend.commit, Backend.answer, hdown]
  | committed plan hup => simp [Save.next, Backend.commit, Backend.answer, hup]

theorem exists_comes (layout : Layout) (backend : Backend) (save : Save) :
    ∃ next, Comes layout backend save next := by
  cases hup : backend.unavailable with
  | true =>
      cases save with
      | reading entries => exact ⟨_, .unread entries hup⟩
      | writing plan => exact ⟨_, .unwritten plan hup⟩
  | false =>
      cases save with
      | writing plan => exact ⟨_, .committed plan hup⟩
      | reading entries =>
          by_cases hbad : (Plan.against layout backend.store entries).badKeys = []
          · by_cases hcommands : (Plan.against layout backend.store entries).commands = []
            · exact ⟨_, .upToDate entries hup hbad hcommands⟩
            · exact ⟨_, .planned entries hup hbad hcommands⟩
          · exact ⟨_, .refused entries hup hbad⟩

theorem comes_next (layout : Layout) (backend : Backend) (save : Save) :
    Comes layout backend save (save.next layout backend) := by
  obtain ⟨next, h⟩ := exists_comes layout backend save
  rw [h.next_eq]
  exact h

-- Only a plan that may and that must be written makes a save go on.
theorem next_eq_waiting {other : Save} {after : Backend}
    (h : save.next layout backend = (after, .waiting other)) :
    ∃ entries, save = .reading entries ∧
      other = .writing (Plan.against layout backend.store entries) ∧
      (Plan.against layout backend.store entries).badKeys = [] ∧
      (Plan.against layout backend.store entries).commands ≠ [] := by
  have hcomes := comes_next layout backend save
  rw [h] at hcomes
  cases hcomes with
  | planned entries hup hbad hcommands => exact ⟨entries, rfl, rfl, hbad, hcommands⟩

end Next

end Save

end ShardedLedger
