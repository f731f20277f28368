-- Every frame that a backend is handed has passed the check of its endpoint, against what the
-- session was asked for with.
import PictureInPicture.Proofs.Session.Isolation

namespace PictureInPicture

variable {σ : Type} {b : Backend σ}

namespace World

variable {w w' : World σ} {events : List Event}

/-! ## What a session declares -/

/-- The sources that a session declares. -/
def declared? (w : World σ) (n : Nat) : Option (Both Source) := (w.inbox? n).map (·.declared)

theorem declared?_eq {n : Nat} {i : Inbox} (hi : w.inbox? n = some i) :
    w.declared? n = some i.declared := by
  simp [declared?, hi]

theorem declared?_modifyInbox {f : Inbox → Inbox} {n : Nat}
    (hf : ∀ i, w.inbox? n = some i → (f i).declared = i.declared) (m : Nat) :
    (w.modifyInbox n f).declared? m = w.declared? m :=
  map_inbox?_modifyInbox fun i hnm hi => hf i (hnm ▸ hi)

/-- The thread never changes what a session declares. -/
theorem declared?_works (h : Works b w w' events) (n : Nat) : w'.declared? n = w.declared? n := by
  cases h with
  | rest | serve | decline | collapse | ignore | heed | halt | shutdown | miss | lose => rfl
  | discard | release | report | reach =>
    refine declared?_modifyInbox (fun i _ => ?_) n
    rfl
  | @finish active role frame inbox _ _ hin | @fail active role frame inbox _ _ hin
  | @crash active role frame inbox _ _ hin =>
    refine declared?_modifyInbox (fun i hi => ?_) n
    rw [hin] at hi
    cases hi
    exact (Loop.processes_sameSlots (Loop.process_processes b active.loop inbox role frame)).declared

end World

namespace Course

variable {c c' : Course σ}

/-- The terms of a session are never changed. -/
theorem terms_moves (hm : Moves b c c') : c'.terms = c.terms ∨ ∃ t, c'.terms = c.terms ++ [t] := by
  cases hm with
  | owner hm =>
    cases hm with
    | startUnheard | start => exact .inr ⟨_, rfl⟩
    | _ => exact .inl rfl
  | _ => exact .inl rfl

theorem term_moves (hm : Moves b c c') {n : Nat} {t : Terms σ} (ht : c.terms[n]? = some t) :
    c'.terms[n]? = some t := by
  rcases terms_moves hm with heq | ⟨more, heq⟩
  · rw [heq]
    exact ht
  · rw [heq, List.getElem?_append_left (List.getElem?_eq_some_iff.mp ht).1]
    exact ht

theorem term_run {acts : List (Act σ)} {n : Nat} {t : Terms σ}
    (ht : (run b acts).terms[n]? = some t) (more : List (Act σ)) :
    (run b (acts ++ more)).terms[n]? = some t :=
  later_run b acts more ht fun _ _ _ h hm => term_moves hm h

theorem term_of_start (config : Config Float32) (factory : Factory σ) (clock : Clock)
    (hv : config.validate = .ok ()) :
    (run b [.start config factory clock]).terms[0]? = some ⟨config, factory, clock⟩ := by
  simp [run, step, start, new, World.new, hv, World.listening]

theorem inbox_of_start (config : Config Float32) (factory : Factory σ) (clock : Clock)
    (hv : config.validate = .ok ()) :
    (run b [.start config factory clock]).world.inbox? 0 = some (.ofConfig config) := by
  simp [run, step, start, new, World.new, hv, World.listening, World.post, World.inbox?]

/-- The frame is one of those that the session was asked for with. -/
def Admits (c : Course σ) (n : Nat) (role : Role) (frame : Frame) : Prop :=
  ∃ t, c.terms[n]? = some t ∧ frame.validateFor role (t.config.sources.get role) = .ok ()

theorem admits_moves (hm : Moves b c c') {n : Nat} {role : Role} {frame : Frame}
    (hn : c.Admits n role frame) : c'.Admits n role frame := by
  obtain ⟨t, ht, hvalid⟩ := hn
  exact ⟨t, term_moves hm ht, hvalid⟩

/-! ## What was checked -/

/-- A session declares what it was asked for with, and only frames that passed its check go on
to its slots. -/
structure Vetted (c : Course σ) : Prop where
  declared : ∀ n, c.world.declared? n = c.terms[n]?.map (·.config.sources)
  parking : ∀ e ∈ c.errands, e.stage = .parking → c.Admits e.session e.role e.frame
  parked : ∀ n role frame, .parked n role frame ∈ c.story → c.Admits n role frame

theorem vetted_new : Vetted (new σ) := by
  refine ⟨fun n => ?_, fun e he => ?_, fun n role frame hp => ?_⟩
  · simp [new, World.new, World.declared?, World.inbox?]
  · simp [new] at he
  · simp [new] at hp

/-- The terms of the sessions grow with the sessions. -/
theorem declared_moves (h : Sound c) (hm : Moves b c c')
    (hd : ∀ n, c.world.declared? n = c.terms[n]?.map (·.config.sources)) (n : Nat) :
    c'.world.declared? n = c'.terms[n]?.map (·.config.sources) := by
  have asked : ∀ (t : Terms σ) (queue : List (Task σ)),
      ({ c.world with inboxes := c.world.inboxes ++ [.ofConfig t.config], answer := none, queue } :
        World σ).declared? n = (c.terms ++ [t])[n]?.map (·.config.sources) := by
    intro t queue
    unfold World.declared? World.inbox?
    rcases Nat.lt_trichotomy n c.world.inboxes.length with hlt | rfl | hgt
    · rw [List.getElem?_append_left hlt, List.getElem?_append_left (by rwa [h.terms_length])]
      exact hd n
    · rw [List.getElem?_concat_length, ← h.terms_length, List.getElem?_concat_length]
      rfl
    · rw [List.getElem?_eq_none (by simp; omega), List.getElem?_eq_none (by
        rw [List.length_append, h.terms_length]
        simp
        omega)]
      rfl
  cases hm with
  | turnAway | approach | accept | confirm | overtake | unheard | tell => exact hd n
  | refuse | park | replace | withdraw =>
    refine (World.declared?_modifyInbox (fun i _ => ?_) n).trans (hd n)
    rfl
  | work hw => exact (World.declared?_works hw n).trans (hd n)
  | owner hm =>
    cases hm with
    | refuseStart | leave | loseStart | failStart | grant | close | depart => exact hd n
    | startUnheard | start => exact asked ⟨_, _, _⟩ _
    | raise =>
      refine (World.declared?_modifyInbox (fun i _ => ?_) n).trans (hd n)
      rfl
    | askStop | askEnd =>
      unfold World.declared? World.inbox?
      rw [inboxes_post]
      exact hd n

/-- A submission comes to the slot only with a frame that the check lets pass. -/
theorem parking_moves (hm : Moves b c c') (hc : Vetted c) {e : Errand} (he : e ∈ c'.errands)
    (hs : e.stage = .parking) : c.Admits e.session e.role e.frame := by
  have onward : ∀ {k : Nat} {e₁ : Errand} {stage : Errand.Stage},
      e ∈ c.errands.set k { e₁ with stage } →
      (stage = .parking → c.Admits e₁.session e₁.role e₁.frame) →
      c.Admits e.session e.role e.frame := by
    intro k e₁ stage hmem hstage
    rcases List.mem_or_eq_of_mem_set hmem with hold | rfl
    · exact hc.parking e hold hs
    · exact hstage hs
  cases hm with
  | @accept k e₁ inbox _ hi _ hv =>
    refine onward he fun _ => ?_
    have hdeclared := hc.declared e₁.session
    rw [World.declared?_eq hi] at hdeclared
    obtain ⟨t, ht, hsources⟩ := Option.map_eq_some_iff.mp hdeclared.symm
    rw [← hsources] at hv
    exact ⟨t, ht, hv⟩
  | refuse | park | confirm | overtake | replace | tell | unheard | withdraw =>
    exact onward he nofun
  | turnAway | approach =>
    rcases List.mem_append.mp he with hold | hlast
    · exact hc.parking e hold hs
    · rw [List.mem_singleton.mp hlast] at hs
      cases hs
  | work => exact hc.parking e he hs
  | owner hm =>
    rw [(spares_manages hm).errands] at he
    exact hc.parking e he hs

/-- A frame that is put into a slot has passed the check. -/
theorem parked_moves (hm : Moves b c c') (hc : Vetted c) {n : Nat} {role : Role} {frame : Frame}
    (hp : .parked n role frame ∈ c'.story) : c.Admits n role frame := by
  have onward : ∀ {k : Nat} {e : Errand} {stage : Errand.Stage},
      c.errands[k]? = some e → .parked n role frame ∈ c.story ++ e.tale stage →
      c.Admits n role frame := by
    intro k e stage he hmem
    rcases List.mem_append.mp hmem with hold | hlate
    · exact hc.parked n role frame hold
    · unfold Errand.tale at hlate
      split at hlate
      · cases hlate
      · rename_i hs
        cases List.mem_singleton.mp hlate
        exact hc.parking e (List.mem_of_getElem? he) hs
      · cases List.mem_singleton.mp hlate
      · cases hlate
  cases hm with
  | accept he | refuse he | park he | confirm he | overtake he | replace he | tell he
  | unheard he | withdraw he => exact onward he hp
  | approach => exact hc.parked n role frame hp
  | turnAway =>
    rcases List.mem_append.mp hp with hold | hlast
    · exact hc.parked n role frame hold
    · cases List.mem_singleton.mp hlast
  | work =>
    rcases List.mem_append.mp hp with hold | hlate
    · exact hc.parked n role frame hold
    · obtain ⟨_, _, heq⟩ := List.mem_map.mp hlate
      cases heq
  | owner hm =>
    obtain ⟨new, hstory, hnew⟩ := (spares_manages hm).story
    rw [hstory] at hp
    rcases List.mem_append.mp hp with hold | hlate
    · exact hc.parked n role frame hold
    · cases hnew _ hlate

theorem vetted_run (b : Backend σ) (acts : List (Act σ)) : Vetted (run b acts) := by
  refine sound_run_induction b acts vetted_new ?_
  intro c c' h hc hm
  refine ⟨declared_moves h hm hc.declared, fun e he hs => ?_, fun n role frame hp => ?_⟩
  · exact admits_moves hm (parking_moves hm hc he hs)
  · exact admits_moves hm (parked_moves hm hc hp)

/-- Whatever happens, a backend is handed only frames that its session has checked. -/
theorem valid_of_upload (b : Backend σ) (acts : List (Act σ)) {n : Nat} {t : Terms σ} {role : Role}
    {frame : Frame} (ht : (run b acts).terms[n]? = some t)
    (hu : .call (.upload role frame) ∈ workFor n (run b acts).story) :
    frame.validateFor role (t.config.sources.get role) = .ok () := by
  have hc := vetted_run b acts
  obtain ⟨pre, post, hsplit⟩ := List.append_of_mem (mem_workFor.mp hu)
  have hwait := (traced_run b acts n role frame pre post hsplit).1
  have hparked : .parked n role frame ∈ (run b acts).story := by
    rw [hsplit]
    exact List.mem_append_left _ (parked_of_waiting hwait)
  obtain ⟨t', ht', hvalid⟩ := hc.parked n role frame hparked
  rw [ht] at ht'
  cases ht'
  exact hvalid

end Course

end PictureInPicture
