import Tabular.Proofs.Coordinator.Conflict
import Tabular.Proofs.Coordinator.Visibility

/-!
# Tabular.Proofs.Coordinator.Timeline — what a snapshot may see, told from the history

A `Timeline` is a log whose replies carry the time they were given at.  It tells which transactions have
expired: another one began when they had gone without an end for the time allowed.  `Dates` relates a
state to its timeline.  Main statement: `snapshot_by_history`, a transaction sees precisely what had been
committed or aborted, and neither invalidated nor expired, when it began.
-/

namespace Tabular

/-- The transaction that a call is about. -/
def CoordinatorCall.about? : CoordinatorCall → Option Transaction
  | .connect | .begin _ => none
  | .canCommit _ tx _ | .commit _ tx | .abort _ tx | .invalidate _ tx => some tx

namespace Coordinator

/-! ### Logs of calls about transactions that began -/

theorem Reply.Releases.about {r : Reply} {p : Nat} (h : r.Releases p) :
    ∃ tx, r.call.about? = some tx ∧ tx.writePointer = p := by
  unfold Reply.Releases at h
  split at h
  · exact ⟨_, rfl, h⟩
  · exact ⟨_, rfl, h⟩
  · exact h.elim

theorem Reply.Condemns.about {r : Reply} {p : Nat} (h : r.Condemns p) :
    ∃ tx, r.call.about? = some tx ∧ tx.writePointer = p := by
  unfold Reply.Condemns at h
  split at h
  · exact ⟨_, rfl, h⟩
  · exact h.elim

theorem about?_of_began {r : Reply} {p : Nat} (h : r.fact = .began p) : r.call.about? = none := by
  unfold Reply.fact at h
  split at h <;> first | rfl | cases h

namespace Log

theorem released_append {later earlier : Log} {p : Nat} :
    Released p (later ++ earlier) ↔ Released p later ∨ Released p earlier := by
  simp only [Released, List.mem_append, or_and_right, exists_or]

theorem condemned_append {later earlier : Log} {p : Nat} :
    Condemned p (later ++ earlier) ↔ Condemned p later ∨ Condemned p earlier := by
  simp only [Condemned, List.mem_append, or_and_right, exists_or]

/-- Whether every call is about a transaction that began before. -/
def Genuine : Log → Prop
  | [] => True
  | r :: earlier => Genuine earlier ∧ ∀ tx, r.call.about? = some tx → Began tx.writePointer earlier

variable {later earlier log : Log} {p q : Nat}

theorem Genuine.of_append (h : Genuine (later ++ log)) : Genuine log := by
  induction later with
  | nil => exact h
  | cons r later ih => exact ih h.1

theorem Genuine.began_of_released (h : Genuine log) (hp : Released p log) : Began p log := by
  induction log with
  | nil => simp [Released] at hp
  | cons r earlier ih =>
    rw [began_cons]
    rcases released_cons.1 hp with hr | hp
    · obtain ⟨tx, habout, rfl⟩ := hr.about
      exact .inr (h.2 tx habout)
    · exact .inr (ih h.1 hp)

theorem Genuine.began_of_condemned (h : Genuine log) (hp : Condemned p log) : Began p log := by
  induction log with
  | nil => simp [Condemned] at hp
  | cons r earlier ih =>
    rw [began_cons]
    rcases condemned_cons.1 hp with hr | hp
    · obtain ⟨tx, habout, rfl⟩ := hr.about
      exact .inr (h.2 tx habout)
    · exact .inr (ih h.1 hp)

/-- What begins later has the larger write pointer. -/
theorem Orderly.lt_of_began (h : Orderly (later ++ earlier)) (hp : Began p earlier)
    (hq : Began q later) : p < q := by
  induction later with
  | nil => simp [Began] at hq
  | cons r later ih =>
    rcases began_cons.1 hq with hr | hq
    · have hnew := h.2
      rw [hr] at hnew
      exact hnew p (began_append.2 (.inr hp))
    · exact ih h.1 hq

end Log

/-! ### Timelines -/

/-- A reply and the time it was given at. -/
structure Dated where
  time : Nat
  reply : Reply

/-- Dated replies, the latest first. -/
abbrev Timeline := List Dated

namespace Timeline

/-- What was replied, whenever it was. -/
def log (timeline : Timeline) : Log := timeline.map Dated.reply

/-- Whether a transaction began at the time `start` and no reply has ended it since. -/
def Unended (p start : Nat) : Timeline → Prop
  | [] => False
  | d :: earlier =>
    (d.reply.fact = .began p ∧ d.time = start) ∨
      (¬ d.reply.Releases p ∧ ¬ d.reply.Condemns p ∧ Unended p start earlier)

/-- Whether a transaction expired: when another one began, no reply had ended it for the time allowed. -/
def Expired (timeoutMs p : Nat) : Timeline → Prop
  | [] => False
  | d :: earlier =>
    ((∃ q, d.reply.fact = .began q) ∧ ∃ start, Unended p start earlier ∧ timeoutMs ≤ d.time - start) ∨
      Expired timeoutMs p earlier

variable {d : Dated} {timeline later earlier : Timeline} {timeoutMs p start : Nat}

@[simp] theorem log_cons : log (d :: timeline) = d.reply :: timeline.log := rfl

@[simp] theorem log_append : log (later ++ earlier) = later.log ++ earlier.log := List.map_append

theorem Unended.began (h : Unended p start timeline) : timeline.log.Began p := by
  induction timeline with
  | nil => exact h.elim
  | cons d earlier ih =>
    rw [log_cons, Log.began_cons]
    rcases h with ⟨hr, -⟩ | ⟨-, -, h⟩
    · exact .inl hr
    · exact .inr (ih h)

theorem Expired.began (h : Expired timeoutMs p timeline) : timeline.log.Began p := by
  induction timeline with
  | nil => exact h.elim
  | cons d earlier ih =>
    rw [log_cons, Log.began_cons]
    rcases h with ⟨-, start, hopen, -⟩ | h
    · exact .inr hopen.began
    · exact .inr (ih h)

/-- A transaction that expired had not been ended by then. -/
theorem Expired.exists_unended (h : Expired timeoutMs p timeline) :
    ∃ later d earlier start, timeline = later ++ d :: earlier ∧ Unended p start earlier ∧
      Expired timeoutMs p (d :: earlier) := by
  induction timeline with
  | nil => exact h.elim
  | cons d earlier ih =>
    rcases id h with ⟨-, start, hopen, -⟩ | hbefore
    · exact ⟨[], d, earlier, start, rfl, hopen, h⟩
    · obtain ⟨later, d', earlier', start, rfl, hopen, hexpired⟩ := ih hbefore
      exact ⟨d :: later, d', earlier', start, rfl, hopen, hexpired⟩

theorem Expired.of_append (h : Expired timeoutMs p earlier) : Expired timeoutMs p (later ++ earlier) := by
  induction later with
  | nil => exact h
  | cons d later ih => exact .inr ih

/-- What has no end yet was neither released nor condemned. -/
theorem Unended.not_ended (h : Unended p start timeline) (horderly : timeline.log.Orderly)
    (hgenuine : timeline.log.Genuine) : ¬ timeline.log.Released p ∧ ¬ timeline.log.Condemned p := by
  induction timeline with
  | nil => exact h.elim
  | cons d earlier ih =>
    rw [log_cons, Log.released_cons, Log.condemned_cons, not_or, not_or]
    rcases h with ⟨hr, -⟩ | ⟨hreleases, hcondemns, h⟩
    · -- a begin ends nothing, and its pointer was not known before
      have hnone := about?_of_began hr
      have hnew : ¬ Log.Began p (log earlier) := by
        intro hp
        have hlt := horderly.2
        rw [hr] at hlt
        exact Nat.lt_irrefl p (hlt p hp)
      refine ⟨⟨fun hrel => ?_, fun hp => hnew (hgenuine.1.began_of_released hp)⟩,
        fun hcon => ?_, fun hp => hnew (hgenuine.1.began_of_condemned hp)⟩
      · obtain ⟨tx, habout, -⟩ := hrel.about
        rw [hnone] at habout
        cases habout
      · obtain ⟨tx, habout, -⟩ := hcon.about
        rw [hnone] at habout
        cases habout
    · obtain ⟨hreleased, hcondemned⟩ := ih h horderly.1 hgenuine.1
      exact ⟨⟨hreleases, hreleased⟩, hcondemns, hcondemned⟩

/-- What began has no end yet, or was released or condemned. -/
theorem unended_or_ended (h : timeline.log.Began p) :
    (∃ start, Unended p start timeline) ∨ timeline.log.Released p ∨ timeline.log.Condemned p := by
  induction timeline with
  | nil => simp [log, Log.Began] at h
  | cons d earlier ih =>
    rw [log_cons, Log.released_cons, Log.condemned_cons]
    by_cases hreleases : d.reply.Releases p
    · exact .inr (.inl (.inl hreleases))
    by_cases hcondemns : d.reply.Condemns p
    · exact .inr (.inr (.inl hcondemns))
    rw [log_cons, Log.began_cons] at h
    rcases h with hr | h
    · exact .inl ⟨d.time, .inl ⟨hr, rfl⟩⟩
    · rcases ih h with ⟨start, hopen⟩ | hreleased | hcondemned
      · exact .inl ⟨start, .inr ⟨hreleases, hcondemns, hopen⟩⟩
      · exact .inr (.inl (.inr hreleased))
      · exact .inr (.inr (.inr hcondemned))

end Timeline

/-! ### What a state remembers of its timeline -/

theorem getElem?_foldl_invalidate_inProgress (s : Coordinator) (ps : List Nat) (q : Nat) :
    (ps.foldl invalidate s).inProgress[q]? = if q ∈ ps then none else s.inProgress[q]? := by
  induction ps generalizing s with
  | nil => simp
  | cons p ps ih =>
    rw [List.foldl_cons, ih, invalidate_inProgress, Std.ExtTreeMap.getElem?_erase]
    by_cases hmem : q ∈ ps
    · simp [hmem]
    · by_cases heq : p = q
      · simp [heq]
      · have hne : q ≠ p := fun h => heq h.symm
        simp [hmem, heq, hne]

theorem mem_overdue_iff {s : Coordinator} {q now : Nat} :
    q ∈ s.overdue now ↔ ∃ start, s.inProgress[q]? = some start ∧ s.timeoutMs ≤ now - start := by
  rw [overdue, Std.ExtTreeMap.mem_keys, Std.ExtTreeMap.mem_iff_isSome_getElem?,
    Std.ExtTreeMap.getElem?_filter']
  cases h : s.inProgress[q]? with
  | none => simp
  | some start => simp [Option.filter]

@[simp] theorem timeoutMs_prune (s : Coordinator) : s.prune.timeoutMs = s.timeoutMs := by
  obtain ⟨kept, h⟩ := s.prune_eq
  rw [h]

@[simp] theorem timeoutMs_finish (s : Coordinator) (p : Nat) :
    (s.finish p).timeoutMs = s.timeoutMs := by
  simp [finish]

@[simp] theorem timeoutMs_invalidate (s : Coordinator) (p : Nat) :
    (s.invalidate p).timeoutMs = s.timeoutMs := by
  simp [invalidate]

@[simp] theorem timeoutMs_begin (s : Coordinator) (now : Nat) :
    (s.begin now).2.timeoutMs = s.timeoutMs := by
  have hfold : ∀ ps : List Nat, (ps.foldl invalidate s).timeoutMs = s.timeoutMs := by
    intro ps
    induction ps generalizing s with
    | nil => rfl
    | cons p ps ih => rw [List.foldl_cons, ih, timeoutMs_invalidate]
  exact hfold _

theorem getElem?_begin_inProgress (s : Coordinator) (now q : Nat) :
    (s.begin now).2.inProgress[q]? =
      if s.nextPointer = q then some now
      else if q ∈ s.overdue now then none else s.inProgress[q]? := by
  have hexpired := getElem?_foldl_invalidate_inProgress s (s.overdue now) q
  simp only [begin, expire_nextPointer, Std.ExtTreeMap.getElem?_insert]
  rw [expire, hexpired]
  simp

/-- How a state reflects the replies that led to it: what is in progress and since when, and what is
invalid. -/
structure Dates (timeoutMs : Nat) (s : Coordinator) (timeline : Timeline) : Prop where
  timeout : s.timeoutMs = timeoutMs
  opened : ∀ p start, s.inProgress[p]? = some start ↔
    timeline.Unended p start ∧ ¬ timeline.Expired timeoutMs p
  invalid : ∀ p, p ∈ s.invalid ↔ timeline.log.Condemned p ∨ timeline.Expired timeoutMs p

namespace Dates

variable {timeoutMs : Nat} {s s' : Coordinator} {timeline : Timeline} {d : Dated} {p : Nat}

theorem fresh (timeoutMs : Nat) : Dates timeoutMs { timeoutMs } [] where
  timeout := rfl
  opened p start := by simp [Timeline.Unended]
  invalid p := by simp [Timeline.log, Log.Condemned, Timeline.Expired]

theorem cons_same (h : Dates timeoutMs s timeline) (htimeout : s'.timeoutMs = s.timeoutMs)
    (hopen : s'.inProgress = s.inProgress) (hinvalid : s'.invalid = s.invalid)
    (hd : d.reply.Inert) : Dates timeoutMs s' (d :: timeline) := by
  obtain ⟨hbegan, -, hreleases, hcondemns⟩ := hd
  constructor
  case timeout => exact htimeout.trans h.timeout
  case opened =>
    intro p start
    simp [hopen, h.opened, Timeline.Unended, Timeline.Expired, hbegan, hreleases, hcondemns]
  case invalid =>
    intro p
    simp [hinvalid, h.invalid, Timeline.Expired, hbegan, hcondemns]

/-- A commit or an abort closes one transaction. -/
theorem released (h : Dates timeoutMs s timeline) (htimeout : s'.timeoutMs = s.timeoutMs)
    (hopen : s'.inProgress = s.inProgress.erase p) (hinvalid : s'.invalid = s.invalid)
    (hbegan : ∀ q, d.reply.fact ≠ .began q) (hreleases : ∀ q, d.reply.Releases q ↔ q = p)
    (hcondemns : ∀ q, ¬ d.reply.Condemns q) : Dates timeoutMs s' (d :: timeline) := by
  constructor
  case timeout => exact htimeout.trans h.timeout
  case opened =>
    intro q start
    rw [hopen, Std.ExtTreeMap.getElem?_erase]
    by_cases heq : p = q
    · simp [Timeline.Unended, hbegan, hreleases, heq]
    · have hne : q ≠ p := fun h => heq h.symm
      simp [h.opened, Timeline.Unended, Timeline.Expired, hbegan, hreleases, hcondemns, heq, hne]
  case invalid =>
    intro q
    simp [hinvalid, h.invalid, Timeline.Expired, hbegan, hcondemns]

/-- A call that invalidates closes one transaction for good. -/
theorem condemned (h : Dates timeoutMs s timeline) (htimeout : s'.timeoutMs = s.timeoutMs)
    (hopen : s'.inProgress = s.inProgress.erase p) (hinvalid : s'.invalid = s.invalid.insert p)
    (hbegan : ∀ q, d.reply.fact ≠ .began q) (hreleases : ∀ q, ¬ d.reply.Releases q)
    (hcondemns : ∀ q, d.reply.Condemns q ↔ q = p) : Dates timeoutMs s' (d :: timeline) := by
  constructor
  case timeout => exact htimeout.trans h.timeout
  case opened =>
    intro q start
    rw [hopen, Std.ExtTreeMap.getElem?_erase]
    by_cases heq : p = q
    · simp [Timeline.Unended, hbegan, hcondemns, heq]
    · have hne : q ≠ p := fun h => heq h.symm
      simp [h.opened, Timeline.Unended, Timeline.Expired, hbegan, hreleases, hcondemns, heq, hne]
  case invalid =>
    intro q
    rw [hinvalid, Std.ExtTreeSet.mem_insert, h.invalid, Timeline.log_cons, Log.condemned_cons, hcondemns,
      Std.LawfulEqCmp.compare_eq_iff_eq]
    simp [Timeline.Expired, hbegan, or_assoc, eq_comm]

/-- What has not been overdue so far is overdue now if it began too long ago. -/
theorem mem_overdue (h : Dates timeoutMs s timeline) {q now : Nat} :
    q ∈ s.overdue now ↔
      (∃ start, timeline.Unended q start ∧ timeoutMs ≤ now - start) ∧
        ¬ timeline.Expired timeoutMs q := by
  simp only [mem_overdue_iff, h.opened, h.timeout]
  constructor
  · rintro ⟨start, ⟨hopen, hnot⟩, hlate⟩
    exact ⟨⟨start, hopen, hlate⟩, hnot⟩
  · rintro ⟨⟨start, hopen, hlate⟩, hnot⟩
    exact ⟨start, ⟨hopen, hnot⟩, hlate⟩

/-- A begin opens a transaction after it has let others expire. -/
theorem begun (h : Dates timeoutMs s timeline) (hnew : ¬ timeline.log.Began s.nextPointer)
    (now session : Nat) :
    Dates timeoutMs (s.begin now).2
      (⟨now, ⟨.begin session, .ok (s.begin now).1⟩⟩ :: timeline) := by
  have hfact : ∀ q, Reply.fact ⟨.begin session, .ok (s.begin now).1⟩ = .began q ↔
      q = s.nextPointer := by
    intro q
    simp [Reply.fact, eq_comm]
  have hreleases : ∀ q, ¬ Reply.Releases q ⟨.begin session, .ok (s.begin now).1⟩ := fun q hq => hq
  have hcondemns : ∀ q, ¬ Reply.Condemns q ⟨.begin session, .ok (s.begin now).1⟩ := fun q hq => hq
  constructor
  case timeout => exact (timeoutMs_begin s now).trans h.timeout
  case opened =>
    intro q start
    rw [getElem?_begin_inProgress]
    by_cases heq : s.nextPointer = q
    · subst heq
      have hopen : ∀ start, ¬ timeline.Unended s.nextPointer start := fun _ hq => hnew hq.began
      have hexpired : ¬ timeline.Expired timeoutMs s.nextPointer := fun hq => hnew hq.began
      simp [Timeline.Unended, Timeline.Expired, hfact, hopen, hexpired, hreleases, hcondemns]
    · have hne : q ≠ s.nextPointer := fun h => heq h.symm
      simp only [if_neg heq, Timeline.Unended, Timeline.Expired, hfact, hne, hreleases, hcondemns,
        not_false_eq_true, true_and, false_and, false_or, exists_eq, not_or]
      by_cases hlate : q ∈ s.overdue now
      · have hlate' := (h.mem_overdue.1 hlate).1
        simp only [if_pos hlate, reduceCtorEq, false_iff]
        exact fun hq => hq.2.1 hlate'
      · rw [if_neg hlate, h.opened]
        constructor
        · rintro ⟨hopen, hnot⟩
          exact ⟨hopen, fun hsome => hlate (h.mem_overdue.2 ⟨hsome, hnot⟩), hnot⟩
        · rintro ⟨hopen, -, hnot⟩
          exact ⟨hopen, hnot⟩
  case invalid =>
    intro q
    rw [mem_begin_invalid, mem_expire_invalid, h.invalid, h.mem_overdue, Timeline.log_cons,
      Log.condemned_cons]
    simp only [hcondemns, Timeline.Expired, hfact, exists_eq, true_and, false_or]
    grind

theorem reach (h : Dates timeoutMs s timeline) (available : Bool) :
    Dates timeoutMs { s with available } timeline where
  timeout := h.timeout
  opened := h.opened
  invalid := h.invalid

/-- Every call keeps the relation to the timeline. -/
theorem respond (h : Dates timeoutMs s timeline) (ht : Tracks s timeline.log) (now : Nat)
    (call : CoordinatorCall) :
    Dates timeoutMs (s.respond now call).2 (⟨now, ⟨call, (s.respond now call).1⟩⟩ :: timeline) := by
  cases havailable : s.available with
  | false =>
    obtain ⟨reason, he⟩ := respond_unavailable now havailable call
    rw [he]
    exact h.cons_same rfl rfl rfl (Reply.inert_error _ _)
  | true =>
    cases call with
    | connect =>
      rw [← respondBy_prune, respondBy_connect prune now havailable]
      exact h.cons_same rfl rfl rfl (Reply.inert_connect _)
    | begin session =>
      rw [respond_begin now havailable]
      exact h.begun (fun hp => Nat.lt_irrefl _ (ht.began_lt hp)) now session
    | canCommit session tx changes =>
      rw [respond_canCommit now havailable]
      split
      · exact h.cons_same rfl rfl rfl (Reply.inert_error _ _)
      · split
        · exact h.cons_same rfl rfl rfl (Reply.inert_canCommit _ _ _ _)
        · exact h.cons_same rfl rfl rfl (Reply.inert_canCommit _ _ _ _)
    | commit session tx =>
      rw [respond_commit now havailable]
      split
      · exact h.cons_same rfl rfl rfl (Reply.inert_error _ _)
      · split
        · exact h.cons_same rfl rfl rfl (Reply.inert_refused _ _)
        · exact h.released (timeoutMs_finish _ _) (finish_inProgress _ _) (finish_invalid _ _)
            (fun _ => nofun) (fun q => eq_comm) fun _ => nofun
    | abort session tx =>
      rw [respond_abort now havailable]
      exact h.released (timeoutMs_finish _ _) (finish_inProgress _ _) (finish_invalid _ _)
        (fun _ => nofun) (fun q => eq_comm) fun _ => nofun
    | invalidate session tx =>
      rw [respond_invalidate now havailable]
      exact h.condemned (timeoutMs_invalidate _ _) (invalidate_inProgress _ _)
        (invalidate_invalid _ _) (fun _ => nofun) (fun _ => nofun) fun q => eq_comm

end Dates

/-! ### The timeline of a run -/

/-- The timeline of a run; the latest occurrence comes first. -/
def timeline (s : Coordinator) : List Occurrence → Timeline
  | [] => []
  | .call now call :: earlier =>
    ⟨now, ⟨call, ((play s earlier).state.respond now call).1⟩⟩ :: timeline s earlier
  | .reach _ :: earlier => timeline s earlier

theorem timeline_log (s : Coordinator) (events : List Occurrence) :
    (timeline s events).log = (play s events).log := by
  induction events with
  | nil => rfl
  | cons e earlier ih =>
    cases e with
    | call now call => simp only [timeline, Timeline.log_cons, ih, play]
    | reach available => exact ih

/-- A reply of a run is the answer of the state that the earlier part of the run led to. -/
theorem exists_respond_of_timeline {s : Coordinator} {events : List Occurrence}
    {later earlier : Timeline} {d : Dated} (h : timeline s events = later ++ d :: earlier) :
    ∃ before, timeline s before = earlier ∧
      d.reply = ⟨d.reply.call, ((play s before).state.respond d.time d.reply.call).1⟩ := by
  induction events generalizing later with
  | nil => simp [timeline] at h
  | cons e events ih =>
    cases e with
    | reach available => exact ih h
    | call now call =>
      cases later with
      | nil =>
        obtain ⟨rfl, rfl⟩ := List.cons.inj h
        exact ⟨events, rfl, rfl⟩
      | cons d' later => exact ih (List.cons.inj h).2

theorem Dates.play (timeoutMs : Nat) (events : List Occurrence) :
    Dates timeoutMs (play { timeoutMs } events).state (timeline { timeoutMs } events) := by
  induction events with
  | nil => exact Dates.fresh timeoutMs
  | cons e earlier ih =>
    cases e with
    | reach available => exact ih.reach available
    | call now call =>
      have htracks := (Tracks.fresh timeoutMs).play forgets_prune earlier
      rw [playBy_prune, ← timeline_log] at htracks
      exact ih.respond htracks now call

/-! ### Snapshots -/

/-- A transaction that begins sees what had been released, unless it had been condemned or had
expired. -/
theorem Dates.isVisible_begin {timeoutMs : Nat} {s : Coordinator} {earlier : Timeline} {now v : Nat}
    {r : Reply} (h : Dates timeoutMs s earlier) (ht : Tracks s earlier.log)
    (hgenuine : earlier.log.Genuine) (hv : earlier.log.Began v) :
    (s.begin now).1.isVisible v = true ↔
      earlier.log.Released v ∧ ¬ earlier.log.Condemned v ∧
        ¬ Timeline.Expired timeoutMs v (⟨now, r⟩ :: earlier) := by
  have hlt : v < s.nextPointer := ht.began_lt hv
  have hinvalid := h.invalid v
  have hopen : v ∈ s.inProgress ↔
      (∃ start, earlier.Unended v start) ∧ ¬ earlier.Expired timeoutMs v := by
    rw [Std.ExtTreeMap.mem_iff_isSome_getElem?, Option.isSome_iff_exists]
    simp only [h.opened, exists_and_right]
  have hended : earlier.log.Released v → ¬ ∃ start, earlier.Unended v start := by
    rintro hreleased ⟨start, hunended⟩
    exact (hunended.not_ended ht.orderly hgenuine).1 hreleased
  have hcases := Timeline.unended_or_ended hv
  rw [Coordinator.isVisible_begin, hinvalid, hopen]
  constructor
  · rintro (heq | ⟨-, hvalid, hclosed⟩)
    · omega
    rw [not_or] at hvalid
    have hnone : ¬ ∃ start, earlier.Unended v start := fun hunended => hclosed ⟨hunended, hvalid.2⟩
    have hreleased := (hcases.resolve_left hnone).resolve_right hvalid.1
    refine ⟨hreleased, hvalid.1, ?_⟩
    rintro (⟨-, start, hunended, -⟩ | hexpired)
    · exact hnone ⟨start, hunended⟩
    · exact hvalid.2 hexpired
  · rintro ⟨hreleased, hcondemned, hexpired⟩
    refine .inr ⟨by omega, ?_, fun hmem => hended hreleased hmem.1⟩
    rintro (hmem | hmem)
    · exact hcondemned hmem
    · exact hexpired (.inr hmem)

section Run

variable {timeoutMs now session v : Nat} {tx : Transaction} {events : List Occurrence}
  {later earlier : Timeline} {d : Dated}

/-- The state that handed out a transaction of a run. -/
theorem exists_begin_of_timeline
    (h : timeline { timeoutMs } events = later ++ ⟨now, ⟨.begin session, .ok tx⟩⟩ :: earlier) :
    ∃ s, Dates timeoutMs s earlier ∧ Tracks s earlier.log ∧ tx = (s.begin now).1 := by
  obtain ⟨before, rfl, hanswer⟩ := exists_respond_of_timeline h
  have hanswer : .ok tx = ((play { timeoutMs } before).state.respond now (.begin session)).1 := by
    simpa using hanswer
  have htracks := (Tracks.fresh timeoutMs).play forgets_prune before
  rw [playBy_prune, ← timeline_log] at htracks
  exact ⟨_, Dates.play timeoutMs before, htracks, (respond_begin_eq_ok hanswer.symm).1⟩

theorem orderly_timeline (timeoutMs : Nat) (events : List Occurrence) :
    (timeline { timeoutMs } events).log.Orderly := by
  have htracks := (Tracks.fresh timeoutMs).play forgets_prune events
  rw [playBy_prune, ← timeline_log] at htracks
  exact htracks.orderly

/-- What a transaction of a run sees of those that began before it. -/
theorem isVisible_of_timeline (hgenuine : (play { timeoutMs } events).log.Genuine)
    (h : timeline { timeoutMs } events = later ++ ⟨now, ⟨.begin session, .ok tx⟩⟩ :: earlier)
    (hv : earlier.log.Began v) :
    tx.isVisible v = true ↔
      earlier.log.Released v ∧ ¬ earlier.log.Condemned v ∧
        ¬ Timeline.Expired timeoutMs v (⟨now, ⟨.begin session, .ok tx⟩⟩ :: earlier) := by
  obtain ⟨s, hdates, htracks, rfl⟩ := exists_begin_of_timeline h
  rw [← timeline_log, h, Timeline.log_append] at hgenuine
  exact hdates.isVisible_begin htracks hgenuine.of_append.1 hv

/-- What a transaction of a run did not see begin has the larger write pointer. -/
theorem lt_of_timeline
    (h : timeline { timeoutMs } events = later ++ ⟨now, ⟨.begin session, .ok tx⟩⟩ :: earlier)
    (hv : later.log.Began v) : tx.writePointer < v ∧ ¬ earlier.log.Began v := by
  have horderly := orderly_timeline timeoutMs events
  rw [h, Timeline.log_append] at horderly
  refine ⟨horderly.lt_of_began (Log.began_cons.2 (.inl rfl)) hv, fun hearlier => ?_⟩
  exact Nat.lt_irrefl v (horderly.lt_of_began (Log.began_cons.2 (.inr hearlier)) hv)

/-- A transaction of a run sees nothing of those that began after it. -/
theorem not_isVisible_of_later
    (h : timeline { timeoutMs } events = later ++ ⟨now, ⟨.begin session, .ok tx⟩⟩ :: earlier)
    (hv : later.log.Began v) : tx.isVisible v = false := by
  obtain ⟨hlt, -⟩ := lt_of_timeline h hv
  obtain ⟨s, -, -, rfl⟩ := exists_begin_of_timeline h
  rw [begin_writePointer] at hlt
  rw [Bool.eq_false_iff, Ne, Coordinator.isVisible_begin]
  omega

/-- A transaction of a run sees nothing of those that have no end yet when it begins. -/
theorem not_isVisible_of_unended (hgenuine : (play { timeoutMs } events).log.Genuine)
    (h : timeline { timeoutMs } events = later ++ ⟨now, ⟨.begin session, .ok tx⟩⟩ :: earlier)
    {start : Nat} (hv : earlier.Unended v start) : tx.isVisible v = false := by
  rw [Bool.eq_false_iff, Ne, isVisible_of_timeline hgenuine h hv.began]
  rintro ⟨hreleased, -⟩
  have horderly := orderly_timeline timeoutMs events
  rw [← timeline_log, h, Timeline.log_append] at hgenuine
  rw [h, Timeline.log_append] at horderly
  exact (hv.not_ended horderly.of_append.1 hgenuine.of_append.1).1 hreleased

/-- A transaction of a run sees nothing of another one that has no end yet at some later time. -/
theorem not_isVisible_of_unended_later (hgenuine : (play { timeoutMs } events).log.Genuine)
    {rest between : Timeline}
    (h : timeline { timeoutMs } events =
      (rest ++ between) ++ ⟨now, ⟨.begin session, .ok tx⟩⟩ :: earlier)
    {start : Nat} (hv : (between ++ ⟨now, ⟨.begin session, .ok tx⟩⟩ :: earlier : Timeline).Unended v start)
    (hne : v ≠ tx.writePointer) : tx.isVisible v = false := by
  have hbegan := hv.began
  rw [Timeline.log_append, Log.began_append, Timeline.log_cons, Log.began_cons] at hbegan
  rcases hbegan with hlater | hself | hearlier
  · refine not_isVisible_of_later h ?_
    rw [Timeline.log_append, Log.began_append]
    exact .inr hlater
  · injection hself with hself
    exact absurd hself.symm hne
  · rw [Bool.eq_false_iff, Ne, isVisible_of_timeline hgenuine h hearlier]
    rintro ⟨hreleased, -⟩
    have horderly := orderly_timeline timeoutMs events
    rw [← timeline_log, h, List.append_assoc, Timeline.log_append] at hgenuine
    rw [h, List.append_assoc, Timeline.log_append] at horderly
    have hopen := (hv.not_ended horderly.of_append hgenuine.of_append).1
    rw [Timeline.log_append, Log.released_append, Timeline.log_cons, Log.released_cons] at hopen
    exact hopen (.inr (.inr hreleased))

/-- A transaction of a run sees nothing of those that were condemned or had expired before. -/
theorem not_isVisible_of_shut (hgenuine : (play { timeoutMs } events).log.Genuine)
    (h : timeline { timeoutMs } events = later ++ ⟨now, ⟨.begin session, .ok tx⟩⟩ :: earlier)
    (hv : earlier.log.Began v) (hshut : earlier.log.Condemned v ∨ earlier.Expired timeoutMs v) :
    tx.isVisible v = false := by
  rw [Bool.eq_false_iff, Ne, isVisible_of_timeline hgenuine h hv]
  rintro ⟨-, hcondemned, hexpired⟩
  rcases hshut with hshut | hshut
  · exact hcondemned hshut
  · exact hexpired (.inr hshut)

/-- What is condemned or expires before it has an end is seen by no other transaction of the run. -/
theorem not_isVisible_of_shut_unended (hgenuine : (play { timeoutMs } events).log.Genuine)
    (h : timeline { timeoutMs } events = later ++ d :: earlier) {start : Nat}
    (hunended : earlier.Unended v start)
    (hshut : Log.Condemned v (Timeline.log (d :: earlier)) ∨
      Timeline.Expired timeoutMs v (d :: earlier))
    (htx : Log.HandedOut tx (play { timeoutMs } events).log) (hne : v ≠ tx.writePointer) :
    tx.isVisible v = false := by
  obtain ⟨session, hmem⟩ := htx
  rw [← timeline_log] at hmem
  obtain ⟨⟨now, r⟩, hmem, rfl⟩ := List.mem_map.1 hmem
  obtain ⟨later', earlier', hbegin⟩ := List.append_of_mem hmem
  have hboth := h.symm.trans hbegin
  rcases List.append_eq_append_iff.1 hboth with ⟨between, rfl, heq⟩ | ⟨between, -, heq⟩
  · cases between with
    | nil =>
      rw [List.nil_append, List.cons.injEq] at heq
      exact not_isVisible_of_unended hgenuine hbegin (heq.2 ▸ hunended)
    | cons d' between =>
      rw [List.cons_append, List.cons.injEq] at heq
      rw [List.append_cons later d' between] at hbegin
      exact not_isVisible_of_unended_later hgenuine hbegin (heq.2 ▸ hunended) hne
  · cases between with
    | nil =>
      rw [List.nil_append, List.cons.injEq] at heq
      exact not_isVisible_of_unended hgenuine hbegin (heq.2 ▸ hunended)
    | cons d' between =>
      rw [List.cons_append, List.cons.injEq] at heq
      obtain ⟨-, rfl⟩ := heq
      refine not_isVisible_of_shut hgenuine hbegin ?_ ?_
      · rw [Timeline.log_append, Log.began_append, Timeline.log_cons, Log.began_cons]
        exact .inr (.inr hunended.began)
      · rw [Timeline.log_append, Log.condemned_append]
        exact hshut.imp .inr Timeline.Expired.of_append

end Run

/-- **What a snapshot may see is a fact about the history.**  Whatever happened to a coordinator, in any
order and at any times, on transactions that it had handed out: a transaction sees the writes of another
one precisely if that one began before it and, when it began itself, had already been committed or aborted
and had never been invalidated or expired, its own begin having let expire what was overdue.  What was
invalidated before it had an end, or expired, is therefore seen by no other transaction of the run,
whenever that one began; and what had no end yet when a transaction began is never seen by it. -/
theorem snapshot_by_history (timeoutMs : Nat) (events : List Occurrence)
    (hgenuine : (play { timeoutMs } events).log.Genuine) :
    (∀ later now session tx earlier v,
      timeline { timeoutMs } events = later ++ ⟨now, ⟨.begin session, .ok tx⟩⟩ :: earlier →
      Log.Began v (play { timeoutMs } events).log → v ≠ tx.writePointer →
        (tx.isVisible v = true ↔
          Log.Began v (Timeline.log earlier) ∧ Log.Released v (Timeline.log earlier) ∧
            ¬ Log.Condemned v (Timeline.log earlier) ∧
            ¬ Timeline.Expired timeoutMs v (⟨now, ⟨.begin session, .ok tx⟩⟩ :: earlier))) ∧
    (∀ v,
      (Timeline.Expired timeoutMs v (timeline { timeoutMs } events) ∨
        ∃ later d earlier start, timeline { timeoutMs } events = later ++ d :: earlier ∧
          d.reply.Condemns v ∧ Timeline.Unended v start earlier) →
      ∀ tx, Log.HandedOut tx (play { timeoutMs } events).log → v ≠ tx.writePointer →
        tx.isVisible v = false) ∧
    ∀ later now session tx earlier v start,
      timeline { timeoutMs } events = later ++ ⟨now, ⟨.begin session, .ok tx⟩⟩ :: earlier →
      Timeline.Unended v start earlier → tx.isVisible v = false := by
  refine ⟨?_, ?_, ?_⟩
  · intro later now session tx earlier v h hv hne
    have hall := hv
    rw [← timeline_log, h, Timeline.log_append, Log.began_append, Timeline.log_cons,
      Log.began_cons] at hall
    rcases hall with hlater | hself | hearlier
    · have hnot := (lt_of_timeline h hlater).2
      simp [not_isVisible_of_later h hlater, hnot]
    · injection hself with hself
      exact absurd hself.symm hne
    · rw [isVisible_of_timeline hgenuine h hearlier, and_iff_right hearlier]
  · rintro v (hexpired | ⟨later, d, earlier, start, h, hcondemns, hunended⟩) tx htx hne
    · obtain ⟨later, d, earlier, start, h, hunended, hshut⟩ := hexpired.exists_unended
      exact not_isVisible_of_shut_unended hgenuine h hunended (.inr hshut) htx hne
    · have hshut : Log.Condemned v (_ :: Timeline.log earlier) := Log.condemned_cons.2 (.inl hcondemns)
      exact not_isVisible_of_shut_unended hgenuine h hunended (.inl hshut) htx hne
  · intro later now session tx earlier v start h hunended
    exact not_isVisible_of_unended hgenuine h hunended

/-- What was replied to two transactions that overlap, of which the first one committed. -/
theorem timeline_overlapping (rows : ChangeSet) :
    ∃ second : Transaction, second.writePointer = 2 ∧
      timeline { timeoutMs := 30000 } (overlapping rows) =
        [⟨0, ⟨.commit 1 firstTx, .ok true⟩⟩, ⟨0, ⟨.canCommit 1 firstTx rows, .ok true⟩⟩,
          ⟨0, ⟨.begin 2, .ok second⟩⟩, ⟨0, ⟨.begin 1, .ok firstTx⟩⟩] := by
  refine ⟨((play { timeoutMs := 30000 } [.call 0 (.begin 1)]).state.begin 0).1, ?_, ?_⟩
  · simp [play, respond, perform, onSession, begin, expire_zero]
  · simp [overlapping, firstTx, timeline, play, respond, perform, onSession, begin, expire_zero, canCommit,
      commit, hasConflict_of_committed_eq_empty]
    rfl

/-- A transaction that begins when the first of two others has committed sees that one only. -/
theorem snapshot_by_history_overlapping :
    ∃ tx, Log.HandedOut tx
        (play { timeoutMs := 30000 } (.call 0 (.begin 3) :: overlapping ∅)).log ∧
      tx.isVisible 1 = true ∧ tx.isVisible 2 = false := by
  obtain ⟨second, hsecond, hearlier⟩ := timeline_overlapping ∅
  have havailable := (play_overlapping ∅).1
  have htimeline : timeline { timeoutMs := 30000 } (.call 0 (.begin 3) :: overlapping ∅) =
      ⟨0, ⟨.begin 3, .ok ((play { timeoutMs := 30000 } (overlapping ∅)).state.begin 0).1⟩⟩ ::
        timeline { timeoutMs := 30000 } (overlapping ∅) := by
    rw [timeline, respond_begin 0 havailable]
  rw [hearlier] at htimeline
  have hlog := timeline_log { timeoutMs := 30000 } (.call 0 (.begin 3) :: overlapping ∅)
  rw [htimeline] at hlog
  have hgenuine : (play { timeoutMs := 30000 } (.call 0 (.begin 3) :: overlapping ∅)).log.Genuine := by
    rw [← hlog]
    simp [Timeline.log, Log.Genuine, CoordinatorCall.about?, Log.Began, Reply.fact, firstTx]
  obtain ⟨hseen, -, hunseen⟩ := snapshot_by_history 30000 _ hgenuine
  refine ⟨_, ⟨3, ?_⟩, (hseen [] 0 3 _ _ 1 htimeline ?_ ?_).2 ?_, hunseen [] 0 3 _ _ 2 0 htimeline ?_⟩
  · rw [← hlog]
    exact List.mem_cons_self
  · rw [← hlog]
    simp [Timeline.log, Log.Began, Reply.fact, firstTx]
  · rw [begin_writePointer]
    simp [overlapping, firstTx, play, respond, perform, onSession, begin, expire_zero, canCommit, commit,
      remember, hasConflict_of_committed_eq_empty]
  · simp [Timeline.log, Timeline.Expired, Timeline.Unended, Log.Began, Log.Released, Log.Condemned,
      Reply.fact, Reply.Releases, Reply.Condemns, firstTx]
  · simp [Timeline.Unended, Reply.fact, Reply.Releases, Reply.Condemns, firstTx, hsecond]
end Coordinator

end Tabular
