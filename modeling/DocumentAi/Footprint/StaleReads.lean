import DocumentAi.Footprint.Exec

/-!
# Stale reads

A query of an index, and a query without `ConsistentRead`, may answer from an older version of the
table. `World.exec` answers every read from the table as it stands; here the choice also says what
the reads of a given kind show instead when they succeed.

| here | meaning |
| --- | --- |
| `StaleChoice`       | a choice of the services, and how an answer of a stale read differs |
| `World.execStale R` | `World.exec`, with the reads `R` stale |
-/

namespace DocumentAi

structure StaleChoice where
  services : Choice := {}
  shows    : (op : Op) → sig.Res op → sig.Res op := fun _ res => res

def World.execStale (R : Op → Bool) (w : World) (op : Op) (ch : StaleChoice) :
    Option (sig.Ans op × World) :=
  (w.exec op ch.services).map fun r => (if R op then r.1.map (ch.shows op) else r.1, r.2)

section
variable {R : Op → Bool} {w w' : World} {op : Op} {ch : StaleChoice} {ans : sig.Ans op}

theorem execStale_cases (h : w.execStale R op ch = some (ans, w')) :
    ∃ stored : sig.Ans op, w.exec op ch.services = some (stored, w') ∧
      ans = if R op then stored.map (ch.shows op) else stored := by
  obtain ⟨⟨stored, w₁⟩, hx, heq⟩ := Option.map_eq_some_iff.1 h
  cases heq
  exact ⟨stored, hx, rfl⟩

/-- Any other call is what it was. -/
theorem execStale_of_not (hR : R op = false) (h : w.execStale R op ch = some (ans, w')) :
    w.exec op ch.services = some (ans, w') := by
  obtain ⟨stored, hx, rfl⟩ := execStale_cases h
  rwa [if_neg (by rw [hR]; exact Bool.false_ne_true)]

/-- A read that fails shows nothing. -/
theorem execStale_error {e : Exc} (h : w.execStale R op ch = some (.error e, w')) :
    w.exec op ch.services = some (.error e, w') := by
  obtain ⟨stored, hx, hans⟩ := execStale_cases h
  cases stored with
  | error e' =>
    have he : Except.error e = (Except.error e' : sig.Ans op) := by
      split at hans <;> exact hans
    rw [he]
    exact hx
  | ok r => split at hans <;> cases hans

theorem execStale_frame (h : w.execStale R op ch = some (ans, w')) : Frame op w w' := by
  obtain ⟨_, hx, _⟩ := execStale_cases h
  exact exec_frame hx

end

end DocumentAi
