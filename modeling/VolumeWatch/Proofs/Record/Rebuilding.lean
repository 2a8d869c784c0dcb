import VolumeWatch.Proofs.Statistics.Totals
import VolumeWatch.Proofs.Tag.Packing

/-!
Statistics built again from records: outcomes are recorded one after the other, for the tags that
are written with them.

Main statement: where each record agrees with the statistics before it, the statistics at any point
of the records can be built from the records up to there (`Record.Traces.agrees`).
-/

namespace VolumeWatch.Record

variable {α : Type}

def alert? : Record α → Option (AlertRecord α)
  | .alert a => some a
  | _ => none

def outcome? : Record α → Option (OutcomeRecord α)
  | .outcome o => some o
  | _ => none

theorem filterMap_outcome?_map (os : List (OutcomeRecord α)) :
    (os.map .outcome).filterMap outcome? = os := by
  rw [List.filterMap_map]
  exact List.filterMap_some

variable [Scalar α]

/-- The statistics after a record. -/
def replay (s : Statistics α) : Record α → Except (Fault α) (Statistics α)
  | .outcome o => (Tags.unpack o.packedTags).map fun t => s.record t o.outcome
  | _ => .ok s

/-- The statistics after records, from the first to the last. -/
def rebuild (s : Statistics α) (rs : List (Record α)) : Except (Fault α) (Statistics α) :=
  rs.foldlM replay s

/-- What a record says is true of the statistics before it: an outcome is written with tags that
can be read and with the entry that it leads to, a snapshot is that of the statistics, and the two
ways in which the tags of an alert are written denote the same. -/
def Agrees (s : Statistics α) : Record α → Prop
  | .tagIds _ | .bar .. => True
  | .alert a => ∃ t, Tags.unpack (α := α) a.packedTags = .ok t ∧
      a.tagIds.map TagValue.ofId? = t.values.map some
  | .outcome o => ∃ t, Tags.unpack (α := α) o.packedTags = .ok t ∧
      (s.recordOutcome t o.outcome).2 = o.entry ∧ (s.record t o.outcome).lookup t = o.entry
  | .snapshot taken => taken = s.snapshot

/-- Records that lead from statistics to statistics and agree with them on the way. -/
inductive Traces : Statistics α → List (Record α) → Statistics α → Prop where
  | nil (s : Statistics α) : Traces s [] s
  | cons {s s' s'' : Statistics α} {r : Record α} {rs : List (Record α)} : r.Agrees s →
      replay s r = .ok s' → Traces s' rs s'' → Traces s (r :: rs) s''

namespace Traces

variable {s s' s'' : Statistics α} {r : Record α} {rs rs' : List (Record α)}

theorem append (h : Traces s rs s') (h' : Traces s' rs' s'') : Traces s (rs ++ rs') s'' := by
  induction h with
  | nil => exact h'
  | cons hagrees hreplay _ ih => exact .cons hagrees hreplay (ih h')

theorem rebuild_eq (h : Traces s rs s') : rebuild s rs = .ok s' := by
  induction h with
  | nil => rfl
  | cons _ hreplay _ ih =>
    rw [rebuild, List.foldlM_cons, hreplay]
    exact ih

/-- At any point, the statistics are built from the records before it. -/
theorem agrees (h : Traces s (rs ++ r :: rs') s'') : ∃ s', rebuild s rs = .ok s' ∧ r.Agrees s' := by
  induction rs generalizing s with
  | nil =>
    cases h with
    | cons hagrees _ _ => exact ⟨s, rfl, hagrees⟩
  | cons q rs ih =>
    cases h with
    | cons _ hreplay hrest =>
      obtain ⟨s', hbuilt, hagrees⟩ := ih hrest
      refine ⟨s', ?_, hagrees⟩
      rw [rebuild, List.foldlM_cons, hreplay]
      exact hbuilt

/-- Records that are neither outcomes nor snapshots change nothing. -/
theorem of_unchanged (h : ∀ r ∈ rs, r.Agrees s ∧ replay s r = .ok s) : Traces s rs s := by
  induction rs with
  | nil => exact .nil s
  | cons r rs ih =>
    obtain ⟨hr, hrs⟩ := List.forall_mem_cons.mp h
    exact .cons hr.1 hr.2 (ih hrs)

end Traces

theorem agrees_ofAlert (s : Statistics α) (a : Alert α) : (Record.alert (ofAlert a)).Agrees s :=
  ⟨a.tags, Tags.unpack_eq_ok_iff.mpr rfl, a.tags.map_ofId?_ids⟩

theorem replay_outcome (s : Statistics α) {o : OutcomeRecord α} {t : Tags}
    (h : Tags.unpack (α := α) o.packedTags = .ok t) :
    replay s (.outcome o) = .ok (s.record t o.outcome) := by
  simp only [replay, h]
  rfl

/-- Each outcome counts once. -/
theorem alerts_rebuild {s s' : Statistics α} {rs : List (Record α)} (h : rebuild s rs = .ok s') :
    s'.snapshot.alerts = s.snapshot.alerts + (rs.filterMap outcome?).length := by
  induction rs generalizing s with
  | nil =>
    obtain rfl := Except.ok.inj h
    rfl
  | cons r rs ih =>
    cases r with
    | outcome o =>
      rw [rebuild, List.foldlM_cons] at h
      cases hunpack : Tags.unpack (α := α) o.packedTags with
      | error fault =>
        rw [replay, hunpack] at h
        cases h
      | ok t =>
        rw [replay_outcome s hunpack] at h
        rw [ih h, Statistics.alerts_record]
        show _ = s.snapshot.alerts + (o :: rs.filterMap outcome?).length
        rw [List.length_cons]
        omega
    | tagIds | bar | alert | snapshot => exact ih h

/-- An outcome is written with the entry that recording it leads to. -/
theorem agrees_ofOutcome (s : Statistics α) (a : Alert α) (o : Outcome α) :
    (Record.outcome (ofOutcome a o (s.recordOutcome a.tags o).2)).Agrees s := by
  have hlookup : (s.record a.tags o).lookup a.tags = (s.recordOutcome a.tags o).2 := by
    rw [Statistics.lookup_record, if_pos rfl]
    rfl
  exact ⟨a.tags, Tags.unpack_eq_ok_iff.mpr rfl, rfl, hlookup⟩

theorem replay_ofOutcome (s : Statistics α) (a : Alert α) (o : Outcome α) (e : Entry α) :
    replay s (.outcome (ofOutcome a o e)) = .ok (s.record a.tags o) :=
  replay_outcome s (Tags.unpack_eq_ok_iff.mpr rfl)

theorem traces_ofOutcome (s : Statistics α) (a : Alert α) (o : Outcome α) :
    Traces s [.outcome (ofOutcome a o (s.recordOutcome a.tags o).2)] (s.record a.tags o) :=
  .cons (agrees_ofOutcome s a o) (replay_ofOutcome s a o _) (.nil _)

theorem rebuild_concat {s s' : Statistics α} {rs : List (Record α)} (h : rebuild s rs = .ok s')
    (r : Record α) : rebuild s (rs ++ [r]) = replay s' r := by
  unfold rebuild at h ⊢
  rw [List.foldlM_append, h]
  exact bind_pure (replay s' r)

omit [Scalar α] in
theorem forall_split_concat {P : List (Record α) → Record α → Prop} {rs : List (Record α)}
    {r : Record α} (h : ∀ before q after, rs = before ++ q :: after → P before q) (hr : P rs r) :
    ∀ before q after, rs ++ [r] = before ++ q :: after → P before q := by
  intro before q after hsplit
  rcases List.eq_nil_or_concat after with rfl | ⟨after, z, rfl⟩
  · obtain ⟨rfl, hlast⟩ := List.append_inj' hsplit rfl
    obtain rfl : r = q := List.singleton_inj.mp hlast
    exact hr
  · rw [List.concat_eq_append, ← List.cons_append, ← List.append_assoc] at hsplit
    exact h before q after (List.append_inj' hsplit rfl).1

/-- Only outcomes matter. -/
theorem rebuild_outcomes (s : Statistics α) (rs : List (Record α)) :
    rebuild s ((rs.filterMap outcome?).map .outcome) = rebuild s rs := by
  induction rs generalizing s with
  | nil => rfl
  | cons r rs ih =>
    cases r with
    | outcome o =>
      show (replay s (.outcome o) >>= fun s => rebuild s ((rs.filterMap outcome?).map .outcome)) =
        (replay s (.outcome o) >>= fun s => rebuild s rs)
      simp only [ih]
    | tagIds | bar | alert | snapshot => exact ih s

/-- The records of a run: the table of tag values comes first and once, there is a record for each
of the alerts, in order, and the outcomes give the statistics at every point. -/
structure Log (alerts : List (Alert α)) (s : Statistics α) (rs : List (Record α)) : Prop where
  table : ∃ rest, rs = tagTable :: rest ∧ ∀ entries, .tagIds entries ∉ rest
  alerts : rs.filterMap alert? = alerts.map ofAlert
  agrees : ∀ before r after, rs = before ++ r :: after →
    ∃ s', rebuild ∅ before = .ok s' ∧ r.Agrees s'
  rebuilt : rebuild ∅ rs = .ok s

end VolumeWatch.Record
