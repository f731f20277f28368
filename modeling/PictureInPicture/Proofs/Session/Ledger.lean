-- The ledger of a source: what was handed in, what was handed to the backend, and the counters.
-- Frames may be dropped, and are never doubled, swapped or lost without a trace.
import PictureInPicture.Proofs.Session.WakeUp

namespace PictureInPicture

variable {σ : Type} {b : Backend σ}

/-! ## What the story tells of a source -/

namespace Event

/-- The frame of a source that the backend is handed. -/
def upload? (role : Role) : Event → Option Frame
  | call (.upload r frame) => if r = role then some frame else none
  | _ => none

/-- A frame of a source is in its texture. -/
def isUpload (role : Role) : Event → Bool
  | uploaded r outcome => r = role && outcome.isDone
  | _ => false

/-- The backend has refused a frame of a source. -/
def isRefusal (role : Role) : Event → Bool
  | uploaded r outcome => r = role && outcome.isFailed
  | _ => false

end Event

namespace Happening

/-- A frame of a source that waited when its submission was over, with the answer. -/
def accepted? (n : Nat) (role : Role) : Happening → Option (Frame × Submission)
  | answered m r frame (.ok .queued) =>
    if m = n ∧ r = role then some (frame, .queued) else none
  | answered m r frame (.ok .replaced) =>
    if m = n ∧ r = role then some (frame, .replaced) else none
  | _ => none

/-- A frame of a source was refused at its endpoint. -/
def isMalformed (n : Nat) (role : Role) : Happening → Bool
  | answered m r _ (.error _) => m = n && r = role
  | _ => false

/-- It says something of the frames of a source. -/
def concerns (n : Nat) (role : Role) : Happening → Bool
  | answered _ _ _ (.ok .ignored) => false
  | answered m r _ _ => m = n && r = role
  | worked session (.call (.upload r _)) => session = some n && r = role
  | worked session (.uploaded r _) => session = some n && r = role
  | _ => false

end Happening

/-- The frames that an endpoint has accepted, in the order of their submissions. -/
def accepted (n : Nat) (role : Role) (story : List Happening) : List (Frame × Submission) :=
  story.filterMap (Happening.accepted? n role)

/-- The frames that the backend of a session was handed, in their order. -/
def uploads (n : Nat) (role : Role) (story : List Happening) : List Frame :=
  (workFor n story).filterMap (Event.upload? role)

/-- The accepted frames without those in whose place another one was put. -/
def survivors (answers : List (Frame × Submission)) : List Frame :=
  answers.foldl (fun kept answer =>
    match answer.2 with
    | .replaced => kept.dropLast ++ [answer.1]
    | _ => kept ++ [answer.1]) []

/-- So many submissions ended with the answer. -/
def answers (submission : Submission) (l : List (Frame × Submission)) : Nat :=
  l.countP (·.2 = submission)

section

variable (l : List (Frame × Submission)) (frame : Frame)

theorem survivors_queued : survivors (l ++ [(frame, .queued)]) = survivors l ++ [frame] := by
  unfold survivors
  rw [List.foldl_append]
  rfl

theorem survivors_replaced :
    survivors (l ++ [(frame, .replaced)]) = (survivors l).dropLast ++ [frame] := by
  unfold survivors
  rw [List.foldl_append]
  rfl

theorem survivors_snoc (submission : Submission) :
    ∃ kept, kept.Sublist (survivors l) ∧
      survivors (l ++ [(frame, submission)]) = kept ++ [frame] := by
  cases submission with
  | replaced => exact ⟨_, List.dropLast_sublist _, survivors_replaced l frame⟩
  | queued => exact ⟨_, List.Sublist.refl _, survivors_queued l frame⟩
  | ignored =>
    refine ⟨_, List.Sublist.refl _, ?_⟩
    unfold survivors
    rw [List.foldl_append]
    rfl

end

/-- What survives is in the order in which it was accepted. -/
theorem survivors_sublist (l : List (Frame × Submission)) :
    (survivors l).Sublist (l.map Prod.fst) := by
  induction l using List.reverseRecOn with
  | nil => exact List.Sublist.refl _
  | append_singleton l answer ih =>
    obtain ⟨frame, submission⟩ := answer
    obtain ⟨kept, hkept, heq⟩ := survivors_snoc l frame submission
    rw [heq, List.map_append]
    exact (hkept.trans ih).append (List.Sublist.refl _)

/-- The last frame that was accepted survives. -/
theorem getLast?_survivors (l : List (Frame × Submission)) :
    (survivors l).getLast? = (l.map Prod.fst).getLast? := by
  induction l using List.reverseRecOn with
  | nil => rfl
  | append_singleton l answer ih =>
    obtain ⟨frame, submission⟩ := answer
    obtain ⟨kept, _, heq⟩ := survivors_snoc l frame submission
    rw [heq, List.map_append]
    simp

namespace World

/-- The thread is inside the upload of a frame of the source. -/
def isUploading (w : World σ) (n : Nat) (role : Role) : Bool :=
  match w.thread with
  | .uploading active r _ => active.session = n && r = role
  | _ => false

end World

/-! ### What says nothing of a source -/

section

variable {n : Nat} {role : Role} {story new : List Happening}

theorem accepted_append (n : Nat) (role : Role) (story new : List Happening) :
    accepted n role (story ++ new) = accepted n role story ++ accepted n role new :=
  List.filterMap_append

theorem uploads_append (n : Nat) (role : Role) (story new : List Happening) :
    uploads n role (story ++ new) = uploads n role story ++ uploads n role new := by
  unfold uploads
  rw [workFor_append, List.filterMap_append]

theorem accepted_silent (h : ∀ x ∈ new, x.concerns n role = false) : accepted n role new = [] := by
  refine List.filterMap_eq_nil_iff.mpr fun x hx => ?_
  have hx := h x hx
  cases x with
  | answered m r frame result =>
    rcases result with fault | submission
    · rfl
    · cases submission <;> simp_all [Happening.concerns, Happening.accepted?]
  | _ => rfl

theorem malformed_silent (h : ∀ x ∈ new, x.concerns n role = false) :
    new.countP (Happening.isMalformed n role) = 0 := by
  refine List.countP_eq_zero.mpr fun x hx => ?_
  have hx := h x hx
  cases x with
  | answered m r frame result =>
    rcases result with fault | submission
    · simpa [Happening.concerns, Happening.isMalformed] using hx
    · simp [Happening.isMalformed]
  | _ => simp [Happening.isMalformed]

/-- Nothing that the thread has done for the session is about the source. -/
theorem workFor_silent (h : ∀ x ∈ new, x.concerns n role = false) {e : Event}
    (he : e ∈ workFor n new) :
    e.upload? role = none ∧ e.isUpload role = false ∧ e.isRefusal role = false := by
  obtain ⟨x, hx, hwork⟩ := List.mem_filterMap.mp he
  have hx := h x hx
  cases x with
  | worked session event =>
    simp only [Happening.workFor?] at hwork
    split at hwork
    · rename_i hs
      cases hwork
      subst hs
      cases e with
      | call call =>
        cases call <;> simp_all [Happening.concerns, Event.upload?, Event.isUpload, Event.isRefusal]
      | uploaded r outcome =>
        cases outcome <;>
          simp_all [Happening.concerns, Event.upload?, Event.isUpload, Event.isRefusal]
      | _ => exact ⟨rfl, rfl, rfl⟩
    · cases hwork
  | _ => cases hwork

theorem uploads_silent (h : ∀ x ∈ new, x.concerns n role = false) : uploads n role new = [] :=
  List.filterMap_eq_nil_iff.mpr fun _ he => (workFor_silent h he).1

theorem isUpload_silent (h : ∀ x ∈ new, x.concerns n role = false) :
    (workFor n new).countP (Event.isUpload role) = 0 :=
  List.countP_eq_zero.mpr fun _ he => by rw [(workFor_silent h he).2.1]; decide

theorem isRefusal_silent (h : ∀ x ∈ new, x.concerns n role = false) :
    (workFor n new).countP (Event.isRefusal role) = 0 :=
  List.countP_eq_zero.mpr fun _ he => by rw [(workFor_silent h he).2.2]; decide

end

namespace Course

variable {c c' : Course σ} {n : Nat} {role : Role}

/-! ## The ledger is balanced -/

/-- The ledger of one source of one session. What concerns the frames that wait is promised of a
session that takes frames, and what concerns the thread as long as it has not ended. -/
structure Balanced (c : Course σ) (n : Nat) (role : Role) : Prop where
  slot : c.world.isStopping n = false →
    uploads n role c.story ++ (c.world.slot? n role).toList = survivors (accepted n role c.story)
  length : c.world.isStopping n = false →
    (survivors (accepted n role c.story)).length = answers .queued (accepted n role c.story)
  dropped : (c.world.counts n role).dropped = answers .replaced (accepted n role c.story)
  uploaded : (c.world.counts n role).uploaded =
    (workFor n c.story).countP (Event.isUpload role)
  rejected : c.world.isStopping n = false →
    (c.world.counts n role).rejected =
      c.story.countP (Happening.isMalformed n role) +
        (workFor n c.story).countP (Event.isRefusal role)
  ended : c.world.listening = true →
    (uploads n role c.story).length =
      (workFor n c.story).countP (Event.isUpload role) +
        (workFor n c.story).countP (Event.isRefusal role) + (c.world.isUploading n role).toNat

theorem balanced_new : Balanced (new σ) n role :=
  ⟨fun _ => rfl, fun _ => rfl, rfl, rfl, fun _ => rfl, fun _ => rfl⟩

/-- A ledger stays balanced when what is told of the source and what is done to it fit. -/
theorem balanced_next (hc : Balanced c n role) {new : List Happening}
    (hstory : c'.story = c.story ++ new)
    (hflag : c'.world.isStopping n = false → c.world.isStopping n = false)
    (hslot : c'.world.isStopping n = false →
      uploads n role c.story ++ uploads n role new ++ (c'.world.slot? n role).toList =
          survivors (accepted n role c.story ++ accepted n role new) ∧
        (survivors (accepted n role c.story ++ accepted n role new)).length =
          answers .queued (accepted n role c.story) + answers .queued (accepted n role new))
    (hdropped : (c'.world.counts n role).dropped =
      (c.world.counts n role).dropped + answers .replaced (accepted n role new))
    (huploaded : (c'.world.counts n role).uploaded =
      (c.world.counts n role).uploaded + (workFor n new).countP (Event.isUpload role))
    (hrejected : c'.world.isStopping n = false →
      (c'.world.counts n role).rejected =
        (c.world.counts n role).rejected + new.countP (Happening.isMalformed n role) +
          (workFor n new).countP (Event.isRefusal role))
    (hended : c'.world.listening = true → c.world.listening = true ∧
      (uploads n role new).length + (c.world.isUploading n role).toNat =
        (workFor n new).countP (Event.isUpload role) +
          (workFor n new).countP (Event.isRefusal role) +
            (c'.world.isUploading n role).toNat) : Balanced c' n role := by
  unfold answers at hslot hdropped
  refine ⟨fun hs => ?_, fun hs => ?_, ?_, ?_, fun hs => ?_, fun hl => ?_⟩
  · rw [hstory, uploads_append, accepted_append]
    exact (hslot hs).1
  · unfold answers
    rw [hstory, accepted_append, List.countP_append]
    exact (hslot hs).2
  · unfold answers
    rw [hstory, accepted_append, List.countP_append, hdropped, hc.dropped]
    rfl
  · rw [hstory, workFor_append, List.countP_append, huploaded, hc.uploaded]
  · rw [hstory, workFor_append, List.countP_append, List.countP_append, hrejected hs,
      hc.rejected (hflag hs)]
    omega
  · obtain ⟨hl, hnew⟩ := hended hl
    have hold := hc.ended hl
    rw [hstory, uploads_append, workFor_append, List.countP_append, List.countP_append,
      List.length_append]
    omega

/-- What says nothing of a source, and does nothing to it, leaves its ledger balanced. -/
theorem balanced_silent (hc : Balanced c n role) {new : List Happening}
    (hstory : c'.story = c.story ++ new) (hnew : ∀ x ∈ new, x.concerns n role = false)
    (hcounts : c'.world.counts n role = c.world.counts n role)
    (hflag : c'.world.isStopping n = false →
      c.world.isStopping n = false ∧ c'.world.slot? n role = c.world.slot? n role)
    (hthread : c'.world.listening = true → c.world.listening = true ∧
      c'.world.isUploading n role = c.world.isUploading n role) : Balanced c' n role := by
  refine balanced_next hc hstory (fun hs => (hflag hs).1) (fun hs => ?_) ?_ ?_ (fun hs => ?_)
    fun hl => ⟨(hthread hl).1, ?_⟩
  · rw [accepted_silent hnew, uploads_silent hnew, List.append_nil, List.append_nil, (hflag hs).2]
    exact ⟨hc.slot (hflag hs).1, hc.length (hflag hs).1⟩
  · rw [accepted_silent hnew, hcounts]
    rfl
  · rw [isUpload_silent hnew, hcounts]
    rfl
  · rw [malformed_silent hnew, isRefusal_silent hnew, hcounts]
    rfl
  · rw [uploads_silent hnew, isUpload_silent hnew, isRefusal_silent hnew, (hthread hl).2]
    simp

theorem balanced_manages (hm : Manages c c') (hc : Balanced c n role) : Balanced c' n role := by
  have hspare := spares_manages hm
  obtain ⟨new, hstory, hnew⟩ := hspare.story
  refine balanced_silent hc hstory (fun x hx => ?_) (hspare.counts n role) (fun hs => ?_)
    fun hl => ?_
  · have hx := hnew x hx
    cases x <;> first | rfl | cases hx
  · refine ⟨?_, hspare.slot n role⟩
    by_contra hne
    rw [hspare.stopping n (by simpa using hne)] at hs
    cases hs
  · unfold World.listening World.isUploading at *
    rw [hspare.thread] at *
    exact ⟨hl, rfl⟩

/-! ### A submission -/

section

variable {m : Nat} {r : Role} {frame : Frame}

theorem concerns_answered {result : Except BufferFault Submission} (h : ¬(m = n ∧ r = role)) :
    (Happening.answered m r frame result).concerns n role = false := by
  rcases result with fault | submission
  · simpa [Happening.concerns] using h
  · cases submission with
    | ignored => rfl
    | _ => simpa [Happening.concerns] using h

/-- A submission that leaves slot and counters of a source as they were says nothing of it. -/
theorem balanced_handed (hc : Balanced c n role) {f : Inbox → Inbox}
    {result : Except BufferFault Submission} {parked : List Happening}
    (hf : ∀ i, (f i).stopping = i.stopping)
    (hanswer : (Happening.answered m r frame result).concerns n role = false)
    (hparked : ∀ x ∈ parked, x.concerns n role = false)
    (hslot : (c.world.modifyInbox m f).slot? n role = c.world.slot? n role)
    (hcounts : (c.world.modifyInbox m f).counts n role = c.world.counts n role) :
    Balanced (c.handed m r frame (c.world.modifyInbox m f) result parked) n role := by
  refine balanced_silent hc (List.append_assoc _ _ _) (fun x hx => ?_) hcounts (fun hs => ?_)
    fun hl => ⟨hl, rfl⟩
  · rcases List.mem_append.mp hx with hmem | hmem
    · exact hparked x hmem
    · rw [List.mem_singleton.mp hmem]
      exact hanswer
  · refine ⟨?_, hslot⟩
    rw [← hs]
    exact (World.isStopping_modifyInbox hf m n).symm

theorem silent_parked : ∀ x ∈ [Happening.parked m r frame], x.concerns n role = false := by
  intro x hx
  rw [List.mem_singleton.mp hx]
  rfl

/-- What a submission does to one source says nothing of another one. -/
theorem balanced_other (hc : Balanced c n role) (hother : ¬(m = n ∧ r = role)) {f : Inbox → Inbox}
    {result : Except BufferFault Submission} {parked : List Happening}
    (hf : ∀ i, (f i).stopping = i.stopping)
    (hparked : ∀ x ∈ parked, x.concerns n role = false)
    (hslot : ∀ i, r ≠ role → (f i).slot role = i.slot role)
    (hcounts : ∀ i, r ≠ role → (f i).stats.sources.get role = i.stats.sources.get role) :
    Balanced (c.handed m r frame (c.world.modifyInbox m f) result parked) n role := by
  refine balanced_handed hc hf (concerns_answered hother) hparked ?_ ?_
  · rw [World.slot?_modifyInbox]
    split
    · rename_i hmn
      have hr : r ≠ role := fun hr => hother ⟨hmn, hr⟩
      unfold World.slot?
      cases c.world.inbox? n with
      | none => rfl
      | some i => exact hslot i hr
    · rfl
  · exact World.counts_modifyInbox fun i _ hmn => hcounts i fun hr => hother ⟨hmn, hr⟩

/-- A submission to a source: slot, counters and answer have to fit. -/
theorem balanced_answered (hc : Balanced c n role) {f : Inbox → Inbox}
    {result : Except BufferFault Submission} {parked : List Happening} {i : Inbox}
    (hi : c.world.inbox? n = some i) (hf : (f i).stopping = i.stopping)
    (hparked : parked = [] ∨ parked = [.parked n role frame])
    (hslot : c.world.isStopping n = false →
      uploads n role c.story ++ ((f i).slot role).toList =
          survivors (accepted n role c.story ++ accepted n role [.answered n role frame result]) ∧
        (survivors (accepted n role c.story ++
            accepted n role [.answered n role frame result])).length =
          answers .queued (accepted n role c.story) +
            answers .queued (accepted n role [.answered n role frame result]))
    (hdropped : ((f i).stats.sources.get role).dropped =
      (i.stats.sources.get role).dropped +
        answers .replaced (accepted n role [.answered n role frame result]))
    (huploaded : ((f i).stats.sources.get role).uploaded = (i.stats.sources.get role).uploaded)
    (hrejected : ((f i).stats.sources.get role).rejected =
      (i.stats.sources.get role).rejected +
        [Happening.answered n role frame result].countP (Happening.isMalformed n role)) :
    Balanced (c.handed n role frame (c.world.modifyInbox n f) result parked) n role := by
  have hi' := inbox?_modifyInbox_self f hi
  have hcounts : (c.world.modifyInbox n f).counts n role = (f i).stats.sources.get role :=
    World.counts_eq hi' role
  have hflag : (c.world.modifyInbox n f).isStopping n = false → c.world.isStopping n = false := by
    rw [World.isStopping_eq hi', World.isStopping_eq hi, hf]
    exact fun hs => hs
  have hnew : ∀ x ∈ parked, x.concerns n role = false := by
    rcases hparked with rfl | rfl
    · simp
    · exact silent_parked
  have hquiet : workFor n (parked ++ [Happening.answered n role frame result]) = [] := by
    rcases hparked with rfl | rfl <;> rfl
  have hup : uploads n role (parked ++ [Happening.answered n role frame result]) = [] := by
    unfold uploads
    rw [hquiet]
    rfl
  refine balanced_next hc (List.append_assoc _ _ _) hflag (fun hs => ?_) ?_ ?_ (fun _ => ?_)
    fun hl => ⟨hl, ?_⟩
  · change uploads n role c.story ++ uploads n role (parked ++ _) ++
      ((c.world.modifyInbox n f).slot? n role).toList = _ ∧ _
    rw [hup, List.append_nil, World.slot?_eq hi', accepted_append, accepted_silent hnew,
      List.nil_append]
    exact hslot (hflag hs)
  · refine (congrArg _ hcounts).trans ?_
    rw [hdropped, World.counts_eq hi, accepted_append, accepted_silent hnew, List.nil_append]
  · refine (congrArg _ hcounts).trans ?_
    rw [huploaded, World.counts_eq hi, hquiet]
    rfl
  · refine (congrArg _ hcounts).trans ?_
    rw [hrejected, World.counts_eq hi, hquiet, List.countP_append, malformed_silent hnew]
    simp
  · rw [hup, hquiet]
    simp [World.isUploading, handed]

variable {i : Inbox}

theorem balanced_refuse (hc : Balanced c n role) {fault : BufferFault}
    (hi : c.world.inbox? m = some i) :
    Balanced (c.handed m r frame (c.world.modifyInbox m (·.countRejected r)) (.error fault) [])
      n role := by
  by_cases heq : m = n ∧ r = role
  · obtain ⟨rfl, rfl⟩ := heq
    have hnone : accepted m r [.answered m r frame (.error fault)] = [] := rfl
    have hstats := Inbox.stats_countRejected i r
    refine balanced_answered hc hi rfl (.inl rfl) (fun hs => ?_) ?_ ?_ ?_
    · rw [hnone, List.append_nil, Inbox.countRejected, Inbox.slot_modifyStats,
        ← World.slot?_eq hi]
      exact ⟨hc.slot hs, hc.length hs⟩
    · rw [hnone, hstats]
      rfl
    · rw [hstats]
    · rw [hstats]
      simp [Happening.isMalformed]
  · refine balanced_other hc heq (fun _ => rfl) (by simp) (fun i _ => ?_) fun i hr => ?_
    · exact Inbox.slot_modifyStats i r role _
    · exact (Inbox.stats_modifyStats i r role _).trans (if_neg hr)

theorem balanced_replace (hc : Balanced c n role) (hi : c.world.inbox? m = some i)
    (hslot : (i.slot r).isSome = true) :
    Balanced
      (c.handed m r frame (c.world.modifyInbox m fun i => (i.park r frame).countDropped r)
        (.ok .replaced) [.parked m r frame]) n role := by
  by_cases heq : m = n ∧ r = role
  · obtain ⟨rfl, rfl⟩ := heq
    have hone : accepted m r [.answered m r frame (.ok .replaced)] = [(frame, .replaced)] := by
      simp [accepted, Happening.accepted?]
    have hstats : ((i.park r frame).countDropped r).stats.sources.get r = _ :=
      Inbox.stats_countDropped (i.park r frame) r
    rw [Inbox.stats_park] at hstats
    obtain ⟨old, hold⟩ := Option.isSome_iff_exists.mp hslot
    refine balanced_answered hc hi rfl (.inr rfl) (fun hs => ?_) ?_ ?_ ?_
    · have hkept := hc.slot hs
      rw [World.slot?_eq hi, hold, Option.toList_some] at hkept
      rw [hone, survivors_replaced, ← hkept, List.dropLast_concat, Inbox.countDropped,
        Inbox.slot_modifyStats, Inbox.slot_park, if_pos rfl]
      refine ⟨rfl, ?_⟩
      have hlen := hc.length hs
      rw [← hkept] at hlen
      simpa [answers] using hlen
    · rw [hone, hstats]
      rfl
    · rw [hstats]
    · rw [hstats]
      rfl
  · refine balanced_other hc heq (fun _ => rfl) silent_parked (fun i hr => ?_) fun i hr => ?_
    · rw [Inbox.countDropped, Inbox.slot_modifyStats, Inbox.slot_park, if_neg hr]
    · rw [Inbox.countDropped, Inbox.stats_modifyStats, if_neg hr, Inbox.stats_park]

theorem balanced_queue (hc : Balanced c n role) (hi : c.world.inbox? m = some i)
    (hslot : (i.slot r).isSome = false) :
    Balanced
      (c.handed m r frame (c.world.modifyInbox m (·.park r frame)) (.ok .queued)
        [.parked m r frame]) n role := by
  by_cases heq : m = n ∧ r = role
  · obtain ⟨rfl, rfl⟩ := heq
    have hone : accepted m r [.answered m r frame (.ok .queued)] = [(frame, .queued)] := by
      simp [accepted, Happening.accepted?]
    refine balanced_answered hc hi rfl (.inr rfl) (fun hs => ?_) ?_ ?_ ?_
    · have hkept := hc.slot hs
      have hempty : i.slot r = none := by simpa using hslot
      rw [World.slot?_eq hi, hempty, Option.toList_none, List.append_nil] at hkept
      rw [hone, survivors_queued, ← hkept, Inbox.slot_park, if_pos rfl]
      refine ⟨rfl, ?_⟩
      have hlen := hc.length hs
      rw [← hkept] at hlen
      simpa [answers] using hlen
    · rw [hone, Inbox.stats_park]
      rfl
    · rw [Inbox.stats_park]
    · rw [Inbox.stats_park]
      rfl
  · refine balanced_other hc heq (fun _ => rfl) silent_parked (fun i hr => ?_) fun i hr => ?_
    · rw [Inbox.slot_park, if_neg hr]
    · exact Inbox.stats_park i r role frame

/-- A frame that nobody would pick up is taken back, and its slot was empty before. -/
theorem balanced_miss (hc : Balanced c n role) (hi : c.world.inbox? m = some i)
    (hslot : (i.slot r).isSome = false) :
    Balanced
      (c.handed m r frame (c.world.modifyInbox m fun i => (i.park r frame).withdraw r)
        (.ok .ignored) [.parked m r frame]) n role := by
  refine balanced_handed hc (fun _ => rfl) rfl silent_parked ?_ ?_
  · rw [World.slot?_modifyInbox]
    split
    · rename_i hmn
      subst hmn
      rw [hi, Option.bind_some, Inbox.slot_withdraw, Inbox.slot_park, World.slot?_eq hi]
      split
      · rename_i hr
        have hempty : i.slot r = none := by simpa using hslot
        rw [← hr, hempty]
      · rfl
    · rfl
  · refine World.counts_modifyInbox fun i _ _ => ?_
    rw [Inbox.stats_withdraw, Inbox.stats_park]

theorem balanced_hands (hc : Balanced c n role) (hand : Hands c m r frame c') :
    Balanced c' n role := by
  cases hand with
  | ignore =>
    refine balanced_silent hc (List.append_assoc _ _ _) (fun x hx => ?_) rfl
      (fun hs => ⟨hs, rfl⟩) fun hl => ⟨hl, rfl⟩
    rw [List.mem_singleton.mp hx]
    rfl
  | refuse hi => exact balanced_refuse hc hi
  | replace hi _ _ hslot => exact balanced_replace hc hi hslot
  | queue hi _ _ hslot =>
    -- the task in the queue is no part of the ledger
    have hbal : Balanced (c.handed m r frame (c.world.modifyInbox m (·.park r frame))
        (.ok .queued) [.parked m r frame]) n role := balanced_queue hc hi hslot
    exact ⟨hbal.slot, hbal.length, hbal.dropped, hbal.uploaded, hbal.rejected, hbal.ended⟩
  | miss hi _ _ hslot => exact balanced_miss hc hi hslot

end

/-! ### The thread -/

/-- Only what begins or ends an upload says something of a source. -/
theorem silent_work {session : Option Nat} {events : List Event}
    (h : ∀ e ∈ events.filter Event.isMilestone, (Happening.worked session e).concerns n role = false) :
    ∀ x ∈ events.map (Happening.worked session), x.concerns n role = false := by
  intro x hx
  obtain ⟨e, he, rfl⟩ := List.mem_map.mp hx
  cases hm : e.isMilestone with
  | true => exact h e (List.mem_filter.mpr ⟨he, hm⟩)
  | false =>
    cases e with
    | call call =>
      cases call with
      | upload => cases hm
      | render => rfl
    | uploaded => cases hm
    | _ => rfl

theorem accepted_worked (session : Option Nat) (events : List Event) :
    accepted n role (events.map (.worked session)) = [] :=
  List.filterMap_eq_nil_iff.mpr fun x hx => by
    obtain ⟨e, _, rfl⟩ := List.mem_map.mp hx
    rfl

theorem malformed_worked (session : Option Nat) (events : List Event) :
    (events.map (Happening.worked session)).countP (Happening.isMalformed n role) = 0 :=
  List.countP_eq_zero.mpr fun x hx => by
    obtain ⟨e, _, rfl⟩ := List.mem_map.mp hx
    exact Bool.false_ne_true

/-- The thread picks up a frame. -/
theorem balanced_reach (hc : Balanced c n role) {active : Active σ} {r : Role} {frame : Frame}
    (ht : c.world.thread = .reaching active r)
    (hslot : c.world.slot? active.session r = some frame) (told : List (Nat × Role)) :
    Balanced
      { c with
        world :=
          { c.world.modifyInbox active.session (·.withdraw r) with
            thread := .uploading active r frame }
        told
        story := c.story ++
          [Event.call (.upload r frame)].map (.worked (some active.session)) } n role := by
  obtain ⟨i, hi, hi'⟩ := Option.bind_eq_some_iff.mp hslot
  have hcounts : (c.world.modifyInbox active.session (·.withdraw r)).counts n role =
      c.world.counts n role := World.counts_modifyInbox fun i _ _ => Inbox.stats_withdraw i r role
  have hflag : (c.world.modifyInbox active.session (·.withdraw r)).isStopping n =
      c.world.isStopping n := World.isStopping_modifyInbox (f := (·.withdraw r)) (fun _ => rfl) _ _
  have hlisten : c.world.listening = true := by simp [World.listening, ht]
  have hidle : c.world.isUploading n role = false := by simp [World.isUploading, ht]
  by_cases heq : active.session = n ∧ r = role
  · obtain ⟨rfl, rfl⟩ := heq
    have hwork : workFor active.session
        ([Event.call (.upload r frame)].map (.worked (some active.session))) =
        [.call (.upload r frame)] := by
      rw [workFor_worked, if_pos rfl]
    have hup : uploads active.session r
        ([Event.call (.upload r frame)].map (.worked (some active.session))) = [frame] := by
      unfold uploads
      rw [hwork]
      simp [Event.upload?]
    have hgone : (c.world.modifyInbox active.session (·.withdraw r)).slot? active.session r =
        none := by
      rw [World.slot?_modifyInbox, if_pos rfl, hi, Option.bind_some, Inbox.slot_withdraw,
        if_pos rfl]
    refine balanced_next hc rfl (fun hs => hflag.symm.trans hs) (fun hs => ?_) ?_ ?_ (fun hs => ?_)
      fun _ => ⟨hlisten, ?_⟩
    · have hkept := hc.slot (hflag.symm.trans hs)
      rw [hslot] at hkept
      change _ ++ _ ++ ((c.world.modifyInbox active.session _).slot? active.session r).toList = _ ∧ _
      rw [hup, hgone, accepted_worked, Option.toList_none, List.append_nil, List.append_nil]
      exact ⟨hkept, hc.length (hflag.symm.trans hs)⟩
    · rw [accepted_worked]
      exact congrArg SourceStats.dropped hcounts
    · rw [hwork]
      exact congrArg SourceStats.uploaded hcounts
    · rw [hwork, malformed_worked]
      exact congrArg SourceStats.rejected hcounts
    · rw [hup, hwork, hidle]
      simp [World.isUploading, Event.isUpload, Event.isRefusal]
  · refine balanced_silent hc rfl (silent_work fun e he => ?_) hcounts (fun hs => ?_) fun _ => ?_
    · have hmem := (List.mem_filter.mp he).1
      rw [List.mem_singleton.mp hmem]
      simpa [Happening.concerns] using heq
    · refine ⟨hflag.symm.trans hs, ?_⟩
      change (c.world.modifyInbox active.session _).slot? n role = _
      rw [World.slot?_modifyInbox]
      split
      · rename_i hn
        subst hn
        rw [hi, Option.bind_some, Inbox.slot_withdraw, if_neg fun hr => heq ⟨rfl, hr⟩,
          World.slot?_eq hi]
      · rfl
    · refine ⟨hlisten, ?_⟩
      rw [hidle]
      simpa [World.isUploading] using heq

section

variable {r : Role} {o : Outcome Unit} {events rest : List Event}
  (hms : events.filter Event.isMilestone = .uploaded r o :: rest) (hrest : rest = [] ∨ rest = [.drop])

include hms hrest

theorem upload?_of_milestones : events.filterMap (Event.upload? r) = [] := by
  refine List.filterMap_eq_nil_iff.mpr fun e he => ?_
  cases hm : e.isMilestone with
  | true =>
    have hmem : e ∈ Event.uploaded r o :: rest := by
      rw [← hms]
      exact List.mem_filter.mpr ⟨he, hm⟩
    rcases List.mem_cons.mp hmem with rfl | hmem
    · rfl
    · rcases hrest with rfl | rfl
      · cases hmem
      · rw [List.mem_singleton.mp hmem]
        rfl
  | false =>
    cases e with
    | call call =>
      cases call with
      | upload => cases hm
      | render => rfl
    | _ => rfl

theorem isUpload_of_milestones : events.countP (Event.isUpload r) = o.isDone.toNat := by
  rw [← Event.countP_milestones (by intro e he; cases e <;> first | rfl | cases he), hms]
  rcases hrest with rfl | rfl <;> cases o <;>
    simp [Event.isUpload, Outcome.isDone]

theorem isRefusal_of_milestones : events.countP (Event.isRefusal r) = o.isFailed.toNat := by
  rw [← Event.countP_milestones (by intro e he; cases e <;> first | rfl | cases he), hms]
  rcases hrest with rfl | rfl <;> cases o <;>
    simp [Event.isRefusal, Outcome.isFailed]

end

/-- What the end of an upload does to the shared state of its session. -/
structure Settles (r : Role) (o : Outcome Unit) (i j : Inbox) : Prop where
  slot : ∀ r', j.slot r' = i.slot r'
  stopping : i.stopping = true → j.stopping = true
  stats : ∀ r', j.stats.sources.get r' =
    if r = r' then Loop.counted o (i.stats.sources.get r) else i.stats.sources.get r'
  fault : j.stopping = false → ∀ fault, o = .failed fault → fault.isFatal = false

section

variable {active : Active σ} {r : Role} {frame : Frame} {i j : Inbox} {world : World σ}
  {o : Outcome Unit} {events rest : List Event}

/-- The end of an upload in the ledger of its source. -/
theorem balanced_turn_own (hc : Balanced c active.session r)
    (ht : c.world.thread = .uploading active r frame)
    (hi : c.world.inbox? active.session = some i) (hi' : world.inbox? active.session = some j)
    (hj : Settles r o i j) (hidle : world.isUploading active.session r = false)
    (hms : events.filter Event.isMilestone = .uploaded r o :: rest)
    (hrest : rest = [] ∨ rest = [.drop])
    (hcrash : world.listening = true → ∀ crash, o ≠ .crashed crash) (told : List (Nat × Role)) :
    Balanced
      { c with world, told, story := c.story ++ events.map (.worked (some active.session)) }
      active.session r := by
  have hlisten : c.world.listening = true := by simp [World.listening, ht]
  have hbusy : c.world.isUploading active.session r = true := by simp [World.isUploading, ht]
  have hflag : world.isStopping active.session = false →
      j.stopping = false ∧ c.world.isStopping active.session = false := by
    intro hs
    rw [World.isStopping_eq hi'] at hs
    rw [World.isStopping_eq hi]
    refine ⟨hs, ?_⟩
    by_contra hne
    rw [hj.stopping (by simpa using hne)] at hs
    cases hs
  have hcounts : world.counts active.session r =
      Loop.counted o (c.world.counts active.session r) := by
    rw [World.counts_eq hi', World.counts_eq hi, hj.stats, if_pos rfl]
  have hwork : workFor active.session (events.map (.worked (some active.session))) = events := by
    rw [workFor_worked, if_pos rfl]
  have hup : uploads active.session r (events.map (.worked (some active.session))) = [] := by
    unfold uploads
    rw [hwork, upload?_of_milestones hms hrest]
  refine balanced_next hc rfl (fun hs => (hflag hs).2) (fun hs => ?_) ?_ ?_ (fun hs => ?_)
    fun hl => ⟨hlisten, ?_⟩
  · rw [hup, accepted_worked, List.append_nil, List.append_nil]
    refine ⟨?_, hc.length (hflag hs).2⟩
    rw [← hc.slot (hflag hs).2, World.slot?_eq hi, ← hj.slot]
    exact congrArg _ (congrArg _ (World.slot?_eq hi' r))
  · rw [accepted_worked]
    refine (congrArg _ hcounts).trans ?_
    cases o with
    | failed fault => simp only [Loop.counted]; split <;> rfl
    | _ => rfl
  · rw [hwork, isUpload_of_milestones hms hrest]
    refine (congrArg _ hcounts).trans ?_
    cases o with
    | failed fault => simp only [Loop.counted]; split <;> rfl
    | _ => rfl
  · rw [hwork, malformed_worked, isRefusal_of_milestones hms hrest]
    refine (congrArg _ hcounts).trans ?_
    cases o with
    | failed fault => simp [Loop.counted, hj.fault (hflag hs).1 fault rfl, Outcome.isFailed]
    | _ => rfl
  · change _ = _ + (world.isUploading active.session r).toNat
    rw [hup, hwork, isUpload_of_milestones hms hrest, isRefusal_of_milestones hms hrest, hbusy,
      hidle]
    cases o with
    | crashed crash => exact absurd rfl (hcrash hl crash)
    | _ => rfl

/-- The end of an upload in the ledger of another source. -/
theorem balanced_turn_other (hc : Balanced c n role) (hother : ¬(active.session = n ∧ r = role))
    (ht : c.world.thread = .uploading active r frame)
    (hi : c.world.inbox? active.session = some i) (hi' : world.inbox? active.session = some j)
    (hothers : ∀ m, active.session ≠ m → world.inbox? m = c.world.inbox? m)
    (hj : Settles r o i j) (hidle : world.isUploading n role = false)
    (hms : events.filter Event.isMilestone = .uploaded r o :: rest)
    (hrest : rest = [] ∨ rest = [.drop]) (told : List (Nat × Role)) :
    Balanced
      { c with world, told, story := c.story ++ events.map (.worked (some active.session)) }
      n role := by
  have hlisten : c.world.listening = true := by simp [World.listening, ht]
  refine balanced_silent hc rfl (silent_work fun e he => ?_) ?_ (fun hs => ?_) fun _ => ?_
  · rw [hms] at he
    rcases List.mem_cons.mp he with rfl | hmem
    · simpa [Happening.concerns] using hother
    · rcases hrest with rfl | rfl
      · cases hmem
      · rw [List.mem_singleton.mp hmem]
        rfl
  · change world.counts n role = _
    by_cases hn : active.session = n
    · subst hn
      rw [World.counts_eq hi', World.counts_eq hi, hj.stats, if_neg fun hr => hother ⟨rfl, hr⟩]
    · unfold World.counts
      rw [hothers n hn]
  · change world.isStopping n = false at hs
    change _ ∧ world.slot? n role = c.world.slot? n role
    by_cases hn : active.session = n
    · subst hn
      rw [World.isStopping_eq hi'] at hs
      rw [World.isStopping_eq hi, World.slot?_eq hi', World.slot?_eq hi]
      refine ⟨?_, hj.slot role⟩
      by_contra hne
      rw [hj.stopping (by simpa using hne)] at hs
      cases hs
    · unfold World.isStopping at hs ⊢
      unfold World.slot?
      rw [hothers n hn] at hs ⊢
      exact ⟨hs, rfl⟩
  · refine ⟨hlisten, hidle.trans ?_⟩
    simpa [World.isUploading, ht] using hother

/-- An upload comes to its end. -/
theorem balanced_turn (hc : Balanced c n role) (ht : c.world.thread = .uploading active r frame)
    (hi : c.world.inbox? active.session = some i)
    (hworld : world.inboxes = (c.world.modifyInbox active.session fun _ => j).inboxes)
    (hj : Settles r o i j) (hidle : ∀ n role, world.isUploading n role = false)
    (hms : events.filter Event.isMilestone = .uploaded r o :: rest)
    (hrest : rest = [] ∨ rest = [.drop])
    (hcrash : world.listening = true → ∀ crash, o ≠ .crashed crash) (told : List (Nat × Role)) :
    Balanced
      { c with world, told, story := c.story ++ events.map (.worked (some active.session)) }
      n role := by
  have hinbox : ∀ m, world.inbox? m =
      (c.world.modifyInbox active.session fun _ => j).inbox? m := by
    intro m
    unfold World.inbox?
    rw [hworld]
  have hi' : world.inbox? active.session = some j :=
    (hinbox _).trans (inbox?_modifyInbox_self (fun _ => j) hi)
  by_cases heq : active.session = n ∧ r = role
  · obtain ⟨rfl, rfl⟩ := heq
    exact balanced_turn_own hc ht hi hi' hj (hidle _ _) hms hrest hcrash told
  · refine balanced_turn_other hc heq ht hi hi' (fun m hm => ?_) hj (hidle _ _) hms hrest told
    rw [hinbox, World.inbox?_modifyInbox, if_neg hm]

end

/-- The thread does something that is about no frame. -/
theorem balanced_still (hc : Balanced c n role) {world : World σ} {events : List Event}
    (hevents : ∀ e ∈ events.filter Event.isMilestone, e = .drop)
    (hcounts : world.counts n role = c.world.counts n role)
    (hflag : world.isStopping n = false →
      c.world.isStopping n = false ∧ world.slot? n role = c.world.slot? n role)
    (hthread : world.listening = true → c.world.listening = true ∧
      world.isUploading n role = c.world.isUploading n role) (told : List (Nat × Role)) :
    Balanced
      { c with
        world, told, story := c.story ++ events.map (.worked c.world.focus) } n role := by
  refine balanced_silent hc rfl (silent_work fun e he => ?_) hcounts hflag hthread
  rw [hevents e he]
  rfl

/-- The slots of a session that takes no frames are emptied. -/
theorem balanced_clear (hc : Balanced c n role) {world : World σ} {active : Active σ}
    {events : List Event} (hworld : world.inboxes =
      (c.world.modifyInbox active.session .clearSlots).inboxes)
    (hstop : c.world.isStopping active.session = true)
    (hevents : ∀ e ∈ events.filter Event.isMilestone, e = .drop)
    (hlisten : c.world.listening = true)
    (hthread : world.isUploading n role = c.world.isUploading n role) (told : List (Nat × Role)) :
    Balanced
      { c with
        world, told, story := c.story ++ events.map (.worked c.world.focus) } n role := by
  have hinbox : ∀ m, world.inbox? m =
      (c.world.modifyInbox active.session .clearSlots).inbox? m := by
    intro m
    unfold World.inbox?
    rw [hworld]
  have hflag : world.isStopping n = c.world.isStopping n := by
    have hkeep := World.isStopping_modifyInbox (w := c.world) (f := Inbox.clearSlots)
      (fun _ => rfl) active.session n
    rw [← hkeep]
    unfold World.isStopping
    rw [hinbox]
  refine balanced_still hc hevents ?_ (fun hs => ?_) (fun _ => ⟨hlisten, hthread⟩) told
  · have hkeep : (c.world.modifyInbox active.session .clearSlots).counts n role = _ :=
      World.counts_modifyInbox fun i _ _ => Inbox.stats_clearSlots i role
    rw [← hkeep]
    unfold World.counts
    rw [hinbox]
  · rw [hflag] at hs
    refine ⟨hs, ?_⟩
    have hne : active.session ≠ n := by
      rintro rfl
      rw [hstop] at hs
      cases hs
    unfold World.slot?
    rw [hinbox, World.inbox?_modifyInbox, if_neg hne]

theorem balanced_work (h : Sound c) (ha : Awake c) (hc : Balanced c n role) {world : World σ}
    {events : List Event} (hw : World.Works b c.world world events) (told : List (Nat × Role)) :
    Balanced
      { c with
        world, told, story := c.story ++ events.map (.worked c.world.focus) } n role := by
  have effects : ∀ (output : Size) (effects : List Effect),
      ∀ e ∈ (Event.create output :: effects.map .effect).filter Event.isMilestone, e = .drop := by
    intro output effects e he
    rw [List.filter_cons, Event.filter_milestones_effects] at he
    cases he
  have notices : ∀ notices : List Notice,
      ∀ e ∈ (Event.drop :: notices.map .notice).filter Event.isMilestone, e = .drop := by
    intro notices e he
    rw [List.filter_cons, Event.filter_milestones_notices] at he
    exact List.mem_singleton.mp he
  cases hw with
  | rest =>
    refine balanced_still hc ?_ ?_ ?_ ?_ told
    · simp
    · rfl
    · exact fun hs => ⟨hs, rfl⟩
    · exact fun hl => ⟨hl, rfl⟩
  | serve _ ht | decline _ ht =>
    refine balanced_still hc (effects _ _) ?_ ?_ ?_ told
    · rfl
    · exact fun hs => ⟨hs, rfl⟩
    · exact fun _ => ⟨by simp [World.listening, ht], by simp [World.isUploading, ht]⟩
  | collapse =>
    refine balanced_still hc (effects _ _) ?_ ?_ ?_ told
    · rfl
    · exact fun hs => ⟨hs, rfl⟩
    · simp [World.listening]
  | ignore ht | heed ht | halt ht | miss ht =>
    refine balanced_still hc ?_ ?_ ?_ ?_ told
    · simp
    · rfl
    · exact fun hs => ⟨hs, rfl⟩
    · exact fun _ => ⟨by simp [World.listening, ht], by simp [World.isUploading, ht]⟩
  | discard ht hq hs =>
    refine balanced_clear hc ?_ hs ?_ ?_ ?_ told
    · rfl
    · simp
    · simp [World.listening, ht]
    · simp [World.isUploading, ht]
  | release _ ht hq =>
    refine balanced_clear hc ?_ (stopping_of_order h ht hq) (notices _) ?_ ?_ told
    · rfl
    · simp [World.listening, ht]
    · simp [World.isUploading, ht]
  | report ht =>
    refine balanced_clear hc ?_ (ha.failing _ _ ht) ?_ ?_ ?_ told
    · rfl
    · simp
    · simp [World.listening, ht]
    · simp [World.isUploading, World.reportFault, ht]
  | @shutdown active =>
    refine balanced_still hc (fun e he => ?_) ?_ ?_ ?_ told
    · cases active with
      | none => cases he
      | some => exact List.mem_singleton.mp he
    · rfl
    · exact fun hs => ⟨hs, rfl⟩
    · simp [World.listening]
  | @lose active _ _ ht hi =>
    have hlt := h.session_lt active.session (by simp [World.session?, World.active?, ht])
    simp [World.inbox?, hlt] at hi
  | @reach active r frame ht hs =>
    have hreach := balanced_reach hc ht hs told
    have hf : c.world.focus = some active.session :=
      focus_of_session (by simp [World.session?, World.active?, ht])
    rw [hf]
    exact hreach
  | @finish active r frame inbox attempt ht hi ho =>
    have hp := Loop.process_processes b active.loop inbox r frame
    have hkeep := Loop.processes_sameSlots hp
    have houtcome := Loop.processes_outcome hp
    rw [ho] at houtcome
    rw [focus_of_session (n := active.session) (by simp [World.session?, World.active?, ht])]
    refine balanced_turn hc ht hi ?_ ⟨hkeep.slot, fun hs => hkeep.stopping.trans hs,
      Loop.processes_stats hp, fun _ => houtcome⟩ ?_ (Loop.processes_milestones hp) (.inl rfl)
      (fun _ => Loop.not_crashed_of_processes hp fun crash hcrash => ?_) told
    · rfl
    · simp [World.isUploading]
    · rw [ho] at hcrash
      cases hcrash
  | @fail active r frame inbox fault ht hi ho =>
    have hp := Loop.process_processes b active.loop inbox r frame
    have hkeep := Loop.processes_sameSlots hp
    rw [focus_of_session (n := active.session) (by simp [World.session?, World.active?, ht])]
    refine balanced_turn (j := Inbox.requestStop _) hc ht hi ?_ ⟨hkeep.slot, fun _ => rfl,
      Loop.processes_stats hp, fun hs => by cases hs⟩ ?_ ?_ (.inl rfl)
      (fun _ => Loop.not_crashed_of_processes hp fun crash hcrash => ?_) told
    · rfl
    · simp [World.isUploading]
    · rw [List.filter_append, Loop.processes_milestones hp]
      rfl
    · rw [ho] at hcrash
      cases hcrash
  | @crash active r frame inbox crash ht hi ho =>
    have hp := Loop.process_processes b active.loop inbox r frame
    have hkeep := Loop.processes_sameSlots hp
    have houtcome := Loop.processes_outcome hp
    rw [ho] at houtcome
    rw [focus_of_session (n := active.session) (by simp [World.session?, World.active?, ht])]
    refine balanced_turn hc ht hi ?_ ⟨hkeep.slot, fun hs => hkeep.stopping.trans hs,
      Loop.processes_stats hp, fun _ fault hf => absurd hf (houtcome fault)⟩ ?_ ?_ (.inr rfl)
      (fun hl => by cases hl) told
    · rfl
    · simp [World.isUploading]
    · rw [List.filter_append, Loop.processes_milestones hp]
      rfl

theorem balanced_play (b : Backend σ) (deeds : List (Deed σ)) :
    Balanced (play b deeds) n role := by
  have hboth := play_induction (P := fun c => Awake c ∧ Balanced c n role) b deeds
    ⟨awake_new, balanced_new⟩ ?_
  · exact hboth.2
  · rintro c c' ⟨acts, rfl⟩ ⟨ha, hc⟩ hstep
    have h := sound_run b acts
    cases hstep with
    | hand hn hand => exact ⟨awake_hands h ha hn hand, balanced_hands hc hand⟩
    | work hw =>
      exact ⟨awake_work h (sourced_run b acts) ha hw _, balanced_work h ha hc hw _⟩
    | owner hm => exact ⟨awake_manages hm ha, balanced_manages hm hc⟩

/-! ## What becomes of a frame -/

/-- Between two tasks every frame that was queued has come into the texture, was refused by the
backend, or waits. -/
theorem queued_between_tasks (hc : Balanced c n role) (hs : c.world.isStopping n = false)
    {active : Option (Active σ)} (ht : c.world.thread = .idle active) :
    answers .queued (accepted n role c.story) =
      (c.world.counts n role).uploaded + (workFor n c.story).countP (Event.isRefusal role) +
        (c.world.slot? n role).isSome.toNat := by
  have hlisten : c.world.listening = true := by simp [World.listening, ht]
  have hbusy : c.world.isUploading n role = false := by simp [World.isUploading, ht]
  have hended := hc.ended hlisten
  have hlength := congrArg List.length (hc.slot hs)
  rw [hbusy, Bool.toNat_false] at hended
  rw [List.length_append, hc.length hs, hended] at hlength
  rw [hc.uploaded, ← hlength]
  cases c.world.slot? n role <;> rfl

/-- When nothing is announced any more, nothing waits, and the backend has had the last frame. -/
theorem last_when_drained (h : Sound c) (ha : Awake c) (hc : Balanced c n role)
    (hn : n ∈ c.endpoints) (hs : c.world.isStopping n = false) {active : Option (Active σ)}
    (ht : c.world.thread = .idle active) (hq : role ∉ c.world.queue.filterMap Task.role?) :
    (uploads n role c.story).getLast? = ((accepted n role c.story).map Prod.fst).getLast? := by
  have hlisten : c.world.listening = true := by simp [World.listening, ht]
  have hreach : c.world.reaches n role = false := by simp [World.reaches, ht]
  have htold : (n, role) ∉ c.told := by
    intro hmem
    rw [h.told_queue] at hq
    exact hq (List.mem_map.mpr ⟨_, hmem, rfl⟩)
  have hcount := ha.count n role (session?_of_taking h hn hs hlisten) hs
  rw [List.count_eq_zero.mpr htold, hreach] at hcount
  have hslot : c.world.slot? n role = none := by
    cases hw : c.world.slot? n role with
    | none => rfl
    | some => simp [hw] at hcount
  have hkept := hc.slot hs
  rw [hslot, Option.toList_none, List.append_nil] at hkept
  rw [hkept]
  exact getLast?_survivors _

/-- In whatever order whole submissions, the thread and the owner go on, and whatever comes of
the uploads: the frames of a session that takes frames are handed to the backend in the order in
which they were accepted, without those that a later one has displaced and the one that waits.
The counters say how many there were of each, and when nothing is announced any more, the last
frame that was accepted is the last one that the backend was handed. -/
theorem frames_reach_the_backend_in_order (b : Backend σ) (deeds : List (Deed σ)) (n : Nat)
    (role : Role) (hn : n ∈ (play b deeds).endpoints)
    (hs : (play b deeds).world.isStopping n = false) :
    let c := play b deeds
    let counts := c.world.counts n role
    let accepted := accepted n role c.story
    let refusals := (workFor n c.story).countP (Event.isRefusal role)
    (uploads n role c.story).Sublist (accepted.map Prod.fst) ∧
    uploads n role c.story ++ (c.world.slot? n role).toList = survivors accepted ∧
    counts.dropped = answers .replaced accepted ∧
    counts.rejected = c.story.countP (Happening.isMalformed n role) + refusals ∧
    ∀ active, c.world.thread = .idle active →
      answers .queued accepted =
        counts.uploaded + refusals + (c.world.slot? n role).isSome.toNat ∧
      (role ∉ c.world.queue.filterMap Task.role? →
        (uploads n role c.story).getLast? = (accepted.map Prod.fst).getLast?) := by
  intro c counts accepted refusals
  have hc : Balanced c n role := balanced_play b deeds
  have ha : Awake c := awake_play b deeds
  have h : Sound c := by
    obtain ⟨acts, hrun⟩ := play_run b deeds
    change Sound (play b deeds)
    rw [hrun]
    exact sound_run b acts
  have hkept := hc.slot hs
  refine ⟨?_, hkept, hc.dropped, hc.rejected hs, fun active ht => ⟨?_, fun hq => ?_⟩⟩
  · have hsub := survivors_sublist accepted
    rw [← hkept] at hsub
    exact (List.sublist_append_left _ _).trans hsub
  · exact queued_between_tasks hc hs ht
  · exact last_when_drained h ha hc hn hs ht hq

/-- The first frame is displaced, the second one reaches the backend, and the third one waits. -/
theorem a_displaced_frame_is_counted :
    let c := play (obliging (.done ()))
      (opening () ++ [.submit 0 .primary (pixel 1 1 1), .submit 0 .primary (pixel 2 2 2), .work,
        .work, .work, .submit 0 .primary (pixel 3 3 3)])
    (0 ∈ c.endpoints ∧ c.world.isStopping 0 = false) ∧
      (accepted 0 .primary c.story).length = 3 ∧ (uploads 0 .primary c.story).length = 1 ∧
      uploads 0 .primary c.story ++ (c.world.slot? 0 .primary).toList =
        survivors (accepted 0 .primary c.story) :=
  ⟨by decide +kernel, by decide +kernel, by decide +kernel,
    (frames_reach_the_backend_in_order _ _ 0 .primary (by decide +kernel)
      (by decide +kernel)).2.1⟩

end Course

end PictureInPicture
