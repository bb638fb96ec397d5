import RecordGraph.Proofs.FailedUpsert
import RecordGraph.Upsert.Writer

/-!
Batches of writes. A failed upsert leaves the graph as it was, so a batch that passes over
failed records ends as if they had not been in it, and one that a failed record ends is
left as if it had been over before that record.
-/

namespace RecordGraph

@[simp] theorem WriteSummary.skipped_count (s : WriteSummary) (outcome : UpsertOutcome) :
    (s.count outcome).skipped = s.skipped := by
  unfold count
  split <;> rfl

def WriteSummary.withSkipped (s : WriteSummary) (skipped : Nat) : WriteSummary :=
  { s with skipped := skipped }

theorem WriteSummary.count_withSkipped (s : WriteSummary) (skipped : Nat)
    (outcome : UpsertOutcome) :
    (s.withSkipped skipped).count outcome = (s.count outcome).withSkipped skipped := by
  unfold count
  split <;> rfl

namespace Writer

section Engines

variable {σ τ : Type} [Transaction τ] [Engine σ τ]

/-- The records whose upserts succeed, each on the session that those before it leave. -/
def succeeding (w : Writer σ) : List Record → List Record
  | [] => []
  | record :: rest =>
    match (w.settings.upsert w.session record w.relations).1 with
    | .ok _ => record :: (w.write record).2.succeeding rest
    | .error _ => (w.write record).2.succeeding rest

/-- A writer with the same session that treats failures by another policy and has skipped
another number of records. -/
def treating (w : Writer σ) (policy : FailurePolicy) (skipped : Nat) : Writer σ :=
  { w with policy := policy, summary := w.summary.withSkipped skipped }

theorem succeeding_sublist (w : Writer σ) (records : List Record) :
    (w.succeeding records).Sublist records := by
  induction records generalizing w with
  | nil => exact .slnil
  | cons record rest ih =>
    unfold succeeding
    split
    · exact (ih _).cons_cons record
    · exact (ih _).cons record

section Steps

variable {w w' : Writer σ} {record : Record} {written : Option UpsertOutcome} {e : UpsertError}

theorem writeAll_cons_of_ok (h : w.write record = (.ok written, w')) (rest : List Record) :
    writeAll (record :: rest) w = writeAll rest w' := by
  simp only [writeAll, h]

theorem writeAll_cons_of_error (h : w.write record = (.error e, w')) (rest : List Record) :
    writeAll (record :: rest) w = (.error e, w') := by
  simp only [writeAll, h]

theorem write_of_ok {outcome : UpsertOutcome} {session : σ}
    (h : w.settings.upsert w.session record w.relations = (.ok outcome, session)) :
    w.write record = (.ok (some outcome),
      { w with session := session, summary := w.summary.count outcome }) := by
  simp only [write, h]

theorem write_frame (w : Writer σ) (record : Record) :
    (w.write record).2.settings = w.settings ∧ (w.write record).2.relations = w.relations ∧
      (w.write record).2.policy = w.policy := by
  unfold write
  split
  · exact ⟨rfl, rfl, rfl⟩
  · split <;> exact ⟨rfl, rfl, rfl⟩

theorem isOk_write_skip (hpolicy : w.policy = .skip) (record : Record) :
    ∃ written, (w.write record).1 = .ok written := by
  unfold write
  split
  · exact ⟨_, rfl⟩
  · simp only [hpolicy]
    exact ⟨_, rfl⟩

theorem total_write (h : w.write record = (.ok written, w')) :
    w'.summary.total = w.summary.total + 1 := by
  unfold write at h
  split at h
  · rw [← (Prod.mk.inj h).2]
    exact w.summary.total_count _
  · split at h
    · simp at h
    · rw [← (Prod.mk.inj h).2]
      exact w.summary.total_countSkipped

end Steps

variable {w : Writer σ} {before : List Record}

theorem writeAll_frame (w : Writer σ) (records : List Record) :
    (writeAll records w).2.settings = w.settings ∧
      (writeAll records w).2.relations = w.relations ∧
      (writeAll records w).2.policy = w.policy := by
  induction records generalizing w with
  | nil => exact ⟨rfl, rfl, rfl⟩
  | cons record rest ih =>
    obtain ⟨hsettings, hrelations, hpolicy⟩ := w.write_frame record
    rcases hwrite : w.write record with ⟨e | written, w'⟩
    all_goals rw [hwrite] at hsettings hrelations hpolicy
    · rw [writeAll_cons_of_error hwrite]
      exact ⟨hsettings, hrelations, hpolicy⟩
    · obtain ⟨hsettings', hrelations', hpolicy'⟩ := ih w'
      rw [writeAll_cons_of_ok hwrite]
      exact ⟨hsettings'.trans hsettings, hrelations'.trans hrelations, hpolicy'.trans hpolicy⟩

theorem isOk_writeAll_skip (hpolicy : w.policy = .skip) (records : List Record) :
    ∃ summary, (writeAll records w).1 = .ok summary := by
  induction records generalizing w with
  | nil => exact ⟨_, rfl⟩
  | cons record rest ih =>
    obtain ⟨written, hwritten⟩ := isOk_write_skip hpolicy record
    have hskip := (w.write_frame record).2.2.trans hpolicy
    rcases hwrite : w.write record with ⟨result, w'⟩
    rw [hwrite] at hwritten hskip
    obtain rfl : result = .ok written := hwritten
    rw [writeAll_cons_of_ok hwrite]
    exact ih hskip

theorem writeAll_ok {summary : WriteSummary} (h : (writeAll before w).1 = .ok summary) :
    summary = (writeAll before w).2.summary ∧
      summary.total = w.summary.total + before.length := by
  induction before generalizing w with
  | nil =>
    obtain rfl := Except.ok.inj h
    exact ⟨rfl, rfl⟩
  | cons record rest ih =>
    rcases hwrite : w.write record with ⟨e | written, w'⟩
    · simp [writeAll_cons_of_error hwrite] at h
    · rw [writeAll_cons_of_ok hwrite] at h ⊢
      obtain ⟨hsummary, htotal⟩ := ih h
      refine ⟨hsummary, ?_⟩
      rw [htotal, total_write hwrite, List.length_cons]
      omega

theorem writeAll_append_of_ok {summary : WriteSummary}
    (h : (writeAll before w).1 = .ok summary) (later : List Record) :
    writeAll (before ++ later) w = writeAll later (writeAll before w).2 := by
  induction before generalizing w with
  | nil => rfl
  | cons record rest ih =>
    rcases hwrite : w.write record with ⟨e | written, w'⟩
    · simp [writeAll_cons_of_error hwrite] at h
    · rw [writeAll_cons_of_ok hwrite] at h ⊢
      rw [List.cons_append, writeAll_cons_of_ok hwrite]
      exact ih h

end Engines

section Memory

variable {w : Writer MemorySession} {record : Record} {e : UpsertError}

theorem upsert_of_error
    (h : (w.settings.upsert w.session record w.relations).1 = .error e) :
    w.settings.upsert w.session record w.relations = (.error e, w.session) :=
  Prod.ext h (CompilerSettings.session_of_upsert_error h)

theorem write_of_error_abort (hpolicy : w.policy = .abort)
    (h : (w.settings.upsert w.session record w.relations).1 = .error e) :
    w.write record = (.error e, w) := by
  simp only [write, upsert_of_error h, hpolicy]
  rw [← hpolicy]

theorem write_of_error_skip (hpolicy : w.policy = .skip)
    (h : (w.settings.upsert w.session record w.relations).1 = .error e) :
    w.write record = (.ok none, { w with summary := w.summary.countSkipped }) := by
  simp only [write, upsert_of_error h, hpolicy]

/-- The records that succeed succeed again without those between them, since these leave the
session as it is. -/
theorem writeAll_succeeding (hpolicy : w.policy = .skip) (records : List Record)
    (policy : FailurePolicy) (skipped : Nat) :
    writeAll (w.succeeding records) (w.treating policy skipped) =
        (.ok ((writeAll records w).2.treating policy skipped).summary,
          (writeAll records w).2.treating policy skipped) ∧
      (writeAll records w).2.summary.skipped + (w.succeeding records).length =
        w.summary.skipped + records.length := by
  induction records generalizing w with
  | nil => exact ⟨rfl, rfl⟩
  | cons record rest ih =>
    rcases hresult : w.settings.upsert w.session record w.relations with ⟨e | outcome, session⟩
    · have hwrite := write_of_error_skip hpolicy (congrArg Prod.fst hresult)
      obtain ⟨hrun, hcount⟩ := ih (w := { w with summary := w.summary.countSkipped }) hpolicy
      simp only [succeeding, hresult, hwrite, writeAll_cons_of_ok hwrite]
      exact ⟨hrun, hcount.trans (Nat.add_right_comm _ 1 _)⟩
    · have hwrite := write_of_ok hresult
      obtain ⟨hrun, hcount⟩ :=
        ih (w := { w with session := session, summary := w.summary.count outcome }) hpolicy
      have hsame : (w.treating policy skipped).write record = (.ok (some outcome),
          ({ w with session := session, summary := w.summary.count outcome } :
            Writer MemorySession).treating policy skipped) := by
        rw [write_of_ok (w := w.treating policy skipped) hresult]
        simp only [treating, WriteSummary.count_withSkipped]
      simp only [succeeding, hresult, hwrite, writeAll_cons_of_ok hwrite]
      rw [writeAll_cons_of_ok hsame, List.length_cons, List.length_cons]
      refine ⟨hrun, ?_⟩
      rw [← Nat.add_assoc, hcount, WriteSummary.skipped_count, Nat.add_assoc]

theorem writeAll_abort (hpolicy : w.policy = .abort) (records : List Record) :
    (∃ summary, (writeAll records w).1 = .ok summary ∧ summary.skipped = w.summary.skipped ∧
      w.succeeding records = records) ∨
    ∃ before record later e, records = before ++ record :: later ∧
      (∃ summary, (writeAll before w).1 = .ok summary ∧ summary.skipped = w.summary.skipped) ∧
      w.succeeding before = before ∧
      (w.settings.upsert (writeAll before w).2.session record w.relations).1 = .error e := by
  induction records generalizing w with
  | nil => exact .inl ⟨_, rfl, rfl, rfl⟩
  | cons record rest ih =>
    rcases hresult : w.settings.upsert w.session record w.relations with ⟨e | outcome, session⟩
    · exact .inr ⟨[], record, rest, e, rfl, ⟨_, rfl, rfl⟩, rfl, congrArg Prod.fst hresult⟩
    · have hwrite := write_of_ok hresult
      have hcount := w.summary.skipped_count outcome
      obtain ⟨summary, hok, hskipped, hall⟩ |
        ⟨before, failed, later, e, rfl, ⟨summary, hok, hskipped⟩, hall, hfails⟩ :=
          ih (w := { w with session := session, summary := w.summary.count outcome }) hpolicy
      · refine .inl ⟨summary, ?_, hskipped.trans hcount, ?_⟩
        · rw [writeAll_cons_of_ok hwrite, hok]
        · simp only [succeeding, hresult, hwrite, hall]
      · refine .inr ⟨record :: before, failed, later, e, rfl, ⟨summary, ?_, ?_⟩, ?_, ?_⟩
        · rw [writeAll_cons_of_ok hwrite, hok]
        · exact hskipped.trans hcount
        · simp only [succeeding, hresult, hwrite, hall]
        · rw [writeAll_cons_of_ok hwrite]
          exact hfails

/-- Under the skip policy a batch always succeeds and counts each of its records, and the records
that succeed leave the same session and the same counts when they are written alone, under
either policy. Under the abort policy a batch ends at the first record whose upsert fails,
with that error and as the records before it have left it, whatever stands after that record;
later batches go on from there. -/
theorem writeAll_under_policy (w : Writer MemorySession) (records : List Record) :
    (w.policy = .skip →
      (writeAll records w).1 = .ok (writeAll records w).2.summary ∧
      (writeAll records w).2.summary.total = w.summary.total + records.length ∧
      (w.succeeding records).Sublist records ∧
      (writeAll records w).2.summary.skipped + (w.succeeding records).length =
        w.summary.skipped + records.length ∧
      ∀ policy skipped, writeAll (w.succeeding records) (w.treating policy skipped) =
        (.ok ((writeAll records w).2.treating policy skipped).summary,
          (writeAll records w).2.treating policy skipped)) ∧
    (w.policy = .abort →
      (w.succeeding records = records ∧
        (writeAll records w).1 = .ok (writeAll records w).2.summary ∧
        (writeAll records w).2.summary.skipped = w.summary.skipped ∧
        (writeAll records w).2.summary.total = w.summary.total + records.length) ∨
      ∃ before record later e, records = before ++ record :: later ∧
        w.succeeding before = before ∧
        (w.settings.upsert (writeAll before w).2.session record w.relations).1 = .error e ∧
        (∀ others, writeAll (before ++ record :: others) w = (.error e, (writeAll before w).2)) ∧
        (writeAll before w).2.summary.skipped = w.summary.skipped ∧
        (writeAll before w).2.summary.total = w.summary.total + before.length ∧
        ∀ more, writeAll more (writeAll records w).2 = writeAll (before ++ more) w) := by
  refine ⟨fun hpolicy => ?_, fun hpolicy => ?_⟩
  · obtain ⟨summary, hok⟩ := isOk_writeAll_skip hpolicy records
    obtain ⟨rfl, htotal⟩ := writeAll_ok hok
    have hrun := writeAll_succeeding hpolicy records
    exact ⟨hok, htotal, w.succeeding_sublist records, (hrun w.policy w.summary.skipped).2,
      fun policy skipped => (hrun policy skipped).1⟩
  · obtain ⟨summary, hok, hskipped, hall⟩ |
      ⟨before, record, later, e, rfl, ⟨summary, hok, hskipped⟩, hall, hfails⟩ :=
        writeAll_abort hpolicy records
    · obtain ⟨rfl, htotal⟩ := writeAll_ok hok
      exact .inl ⟨hall, hok, hskipped, htotal⟩
    · obtain ⟨rfl, htotal⟩ := writeAll_ok hok
      obtain ⟨hsettings, hrelations, hsame⟩ := writeAll_frame w before
      have hwrite : (writeAll before w).2.write record = (.error e, (writeAll before w).2) :=
        write_of_error_abort (hsame.trans hpolicy) (by rwa [hsettings, hrelations])
      have hstops : ∀ others, writeAll (before ++ record :: others) w =
          (.error e, (writeAll before w).2) := fun others => by
        rw [writeAll_append_of_ok hok, writeAll_cons_of_error hwrite]
      refine .inr ⟨before, record, later, e, rfl, hall, hfails, hstops, hskipped, htotal, ?_⟩
      intro more
      rw [hstops later, writeAll_append_of_ok hok]

end Memory

end Writer

namespace Sample

def guest (name : String) : Record :=
  { named name with
    entries := [("type", .string "Person"), ("uid", .string "8"), ("name", .string name)] }

def party : List Record :=
  [guest "Eve", named "Ann", guest "Una"]

def host (policy : FailurePolicy) : Writer MemorySession :=
  .create ⟨twins, false⟩ .default [] policy

end Sample

theorem writeAll_under_policy_party :
    (Writer.writeAll Sample.party (Sample.host .skip)).1 = .ok ⟨1, 1, 1⟩ ∧
    ((Sample.host .skip).succeeding Sample.party).length = 2 ∧
    (Writer.writeAll ((Sample.host .skip).succeeding Sample.party) (Sample.host .abort)).1 =
      .ok ⟨1, 1, 0⟩ ∧
    (∃ e, Writer.writeAll Sample.party (Sample.host .abort) =
      (.error e, (Writer.writeAll [Sample.guest "Eve"] (Sample.host .abort)).2)) ∧
    (Writer.writeAll [Sample.guest "Una"]
      (Writer.writeAll Sample.party (Sample.host .abort)).2).2.summary = ⟨1, 1, 0⟩ := by
  have hskip : (Writer.writeAll Sample.party (Sample.host .skip)).2.summary = ⟨1, 1, 1⟩ := by
    decide +kernel
  have habort : (Writer.writeAll Sample.party (Sample.host .abort)).2.summary = ⟨1, 0, 0⟩ := by
    decide +kernel
  obtain ⟨hok, -, -, hcount, halone⟩ :=
    (Writer.writeAll_under_policy (Sample.host .skip) Sample.party).1 rfl
  rw [hskip] at hok hcount
  have halone := congrArg Prod.fst (halone .abort 0)
  rw [Writer.treating, Writer.treating, hskip] at halone
  obtain ⟨-, -, -, htotal⟩ | ⟨before, record, later, e, hparty, -, -, hstops, -, htotal, hmore⟩ :=
    (Writer.writeAll_under_policy (Sample.host .abort) Sample.party).2 rfl
  · rw [habort] at htotal
    exact absurd htotal (by decide)
  · have hstopped := hstops later
    rw [← hparty] at hstopped
    rw [← congrArg Prod.snd hstopped, habort] at htotal
    obtain ⟨first, rfl⟩ : ∃ first, before = [first] :=
      List.length_eq_one_iff.1 ((Nat.zero_add _).symm.trans htotal.symm)
    obtain rfl : Sample.guest "Eve" = first := (List.cons.inj hparty).1
    refine ⟨hok, Nat.add_left_cancel hcount, halone, ⟨e, hstopped⟩, ?_⟩
    rw [hmore]
    decide +kernel

end RecordGraph
