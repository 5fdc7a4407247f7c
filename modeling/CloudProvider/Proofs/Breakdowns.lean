import CloudProvider.Proofs.Parts

/-! How runs break down. A pipeline ends with the first of its parts that fails, but for clearing up,
or else comes to its end. This is kept by all constructs that pipelines are made of. -/

namespace CloudProvider

def Smooth (policy : Policy) (h : History) : Prop :=
  ∃ parts : List Part, h = parts.flatMap Part.dealings ∧ ∀ part ∈ parts, part.Succeeds policy

/-- All parts before the mishap have gone well, and nothing but clearing up comes after it. -/
def BreaksDown (policy : Policy) (h : History) (m : Mishap) : Prop :=
  ∃ before part after, h = before ++ (Part.dealings part ++ after) ∧ Smooth policy before ∧
    part.Fails policy m ∧ after.all Exchange.isClearing

/-- A halt comes of a mishap. A wait without an end is not looked into. -/
def Halt.IsShown (policy : Policy) (h : History) (halt : Halt) : Prop :=
  halt = .unfinished ∨ ∃ m, BreaksDown policy h m ∧ halt = m.halt

def Explains {α : Type} (policy : Policy) (h : History) : Except Halt α → Prop
  | .ok _ => Smooth policy h
  | .error halt => halt.IsShown policy h

section Parts

variable {policy : Policy} {before h : History} {part : Part} {m m' : Mishap}

theorem smooth_nil (policy : Policy) : Smooth policy [] :=
  ⟨[], rfl, by simp⟩

theorem Smooth.concat (smooth : Smooth policy before) (succeeds : part.Succeeds policy) :
    Smooth policy (before ++ part.dealings) := by
  obtain ⟨parts, rfl, each⟩ := smooth
  refine ⟨parts ++ [part], by simp, fun other mem => ?_⟩
  rcases List.mem_append.mp mem with mem | mem
  · exact each other mem
  · rwa [List.mem_singleton.mp mem]

theorem Smooth.breaksDown (smooth : Smooth policy before) (fails : part.Fails policy m) :
    BreaksDown policy (before ++ part.dealings) m :=
  ⟨before, part, [], by rw [List.append_nil], smooth, fails, rfl⟩

theorem opens_of_clearing {after : History} (idle : after.all Exchange.isClearing) :
    after.Opens := by
  intro x first
  have clearing := List.all_eq_true.mp idle x (List.mem_of_mem_head? first)
  obtain ⟨e, reply⟩ := x
  cases e <;> first | rfl | cases clearing

/-- Whatever parts have gone well, the failing one and what is cleared up after it begin anew. -/
theorem opens_of_fails {parts : List Part} {after : History}
    (each : ∀ part ∈ parts, part.Succeeds policy) (fails : part.Fails policy m) :
    History.Opens (parts.flatMap Part.dealings ++ (part.dealings ++ after)) := by
  cases parts with
  | nil => exact fails.isWhole.opens after
  | cons first parts =>
    rw [List.flatMap_cons, List.append_assoc]
    exact (each first List.mem_cons_self).isWhole.opens _

theorem BreaksDown.unique (breaks : BreaksDown policy h m) (also : BreaksDown policy h m') :
    m = m' := by
  obtain ⟨_, part, after, rfl, ⟨parts, rfl, each⟩, fails, idle⟩ := breaks
  obtain ⟨_, part', after', same, ⟨parts', rfl, each'⟩, fails', idle'⟩ := also
  induction parts generalizing parts' with
  | nil =>
    cases parts' with
    | nil =>
      obtain ⟨rfl, -⟩ := Part.dealings_append_injective fails.isWhole fails'.isWhole
        (opens_of_clearing idle) (opens_of_clearing idle') same
      exact fails.unique fails'
    | cons first' parts' =>
      obtain ⟨succeeds', each'⟩ := List.forall_mem_cons.mp each'
      rw [List.flatMap_cons, List.append_assoc] at same
      exact absurd same (fails.dealings_append_ne succeeds' (opens_of_clearing idle)
        (opens_of_fails each' fails'))
  | cons first parts ih =>
    obtain ⟨succeeds, each⟩ := List.forall_mem_cons.mp each
    rw [List.flatMap_cons, List.append_assoc] at same
    cases parts' with
    | nil =>
      exact absurd same.symm (fails'.dealings_append_ne succeeds (opens_of_clearing idle')
        (opens_of_fails each fails))
    | cons first' parts' =>
      obtain ⟨succeeds', each'⟩ := List.forall_mem_cons.mp each'
      rw [List.flatMap_cons, List.append_assoc] at same
      obtain ⟨-, tails⟩ := Part.dealings_append_injective succeeds.isWhole succeeds'.isWhole
        (opens_of_fails each fails) (opens_of_fails each' fails') same
      exact ih each parts' each' tails

theorem BreaksDown.isShown (breaks : BreaksDown policy h m) : m.halt.IsShown policy h :=
  .inr ⟨m, breaks, rfl⟩

theorem BreaksDown.cleared {x : Exchange} (breaks : BreaksDown policy h m)
    (clearing : x.isClearing) : BreaksDown policy (h ++ [x]) m := by
  obtain ⟨before, part, after, rfl, smooth, fails, idle⟩ := breaks
  exact ⟨before, part, after ++ [x], by simp, smooth, fails, by simp [idle, clearing]⟩

theorem Halt.IsShown.cleared {halt : Halt} {x : Exchange} (shown : halt.IsShown policy h)
    (clearing : x.isClearing) : halt.IsShown policy (h ++ [x]) := by
  rcases shown with rfl | ⟨m, breaks, rfl⟩
  · exact .inl rfl
  · exact (breaks.cleared clearing).isShown

end Parts

namespace Pipeline

variable {α β : Type} {policy : Policy}

/-- After parts that have gone well, the pipeline ends with the first mishap or without any. -/
def Faithful (policy : Policy) (p : Pipeline α) : Prop :=
  ∀ before, Smooth policy before → p.Ensures before (Explains policy)

theorem faithful_pure (x : α) : (pure x : Pipeline α).Faithful policy :=
  fun _ smooth => ensures_pure smooth

theorem Faithful.bind {p : Pipeline α} {k : α → Pipeline β} (first : p.Faithful policy)
    (second : ∀ x, (k x).Faithful policy) : (p >>= k).Faithful policy := by
  intro before smooth
  exact (first before smooth).bind (fun h x fine => second x h fine) fun _ _ shown => shown

theorem faithful_emit_bind {event : Event} {k : Unit → Pipeline α}
    (rest : (k ()).Faithful policy) : (emit event >>= k).Faithful policy :=
  fun before smooth => ensures_emit_bind (rest before smooth)

/-- The rule for all steps on this host and all readings. -/
theorem faithful_alone_bind {e : Effect} {k : e.Reply → Pipeline α} (lone : e.standsAlone)
    (goes : ∀ reply,
      match Exchange.mishap? ⟨e, reply⟩ with
      | none => (k reply).Faithful policy
      | some m => k reply = throw m.halt) :
    (perform e >>= k).Faithful policy := by
  intro before smooth
  refine ensures_perform_bind fun reply _ => ?_
  have dealing : History.dealings [⟨e, reply⟩] = [⟨e, reply⟩] := by
    cases e <;> first | rfl | cases lone
  rw [dealing]
  have goes := goes reply
  cases shown : Exchange.mishap? ⟨e, reply⟩ with
  | none =>
    rw [shown] at goes
    exact goes _ (smooth.concat (.alone lone shown))
  | some m =>
    rw [shown] at goes
    rw [goes]
    exact ensures_throw (smooth.breaksDown (.alone lone shown)).isShown

section Steps

variable {s : Settings} {name : String} {submission : Submission} {before : History}

/-- What a step ensures when the file that it sends along, if any, has just been read. -/
def StepShown (policy : Policy) (submission : Submission) (before h : History) :
    Except Halt Task → Prop
  | .ok done => ∃ task wait,
    h = before ++ (submission.reads ++ ⟨.call (.submit submission), .ok task⟩ :: wait) ∧
      Wait.Completes policy task.id wait done
  | .error halt => halt.IsShown policy h

theorem ensures_step (smooth : Smooth s.policy before) :
    (step s name submission).Ensures (before ++ submission.reads)
      (StepShown s.policy submission before) := by
  refine ensures_call_bind (fun e => ?_) fun task => ensures_emit_bind ?_
  · rw [List.append_assoc]
    exact (smooth.breaksDown .declined).isShown
  refine (Wait.ensures_track s.policy task.id _).bind ?_ ?_
  · rintro _ done ⟨wait, rfl, completes⟩
    exact ensures_emit_bind (ensures_pure ⟨task, wait, by simp, completes⟩)
  · rintro _ halt ⟨wait, rfl, ends⟩
    have part : before ++ submission.reads ++ [⟨.call (.submit submission), .ok task⟩] ++ wait =
        before ++ (submission.reads ++ ⟨.call (.submit submission), .ok task⟩ :: wait) := by simp
    rw [part]
    rcases ends with rfl | ⟨waiting, m, breaks, rfl⟩
    · exact .inl rfl
    · exact (smooth.breaksDown (.waiting waiting breaks)).isShown

def Sends (policy : Policy) (submission : Submission) (p : Pipeline α) : Prop :=
  ∀ before, Smooth policy before → p.Ensures (before ++ submission.reads) (Explains policy)

theorem sends_change (makes : submission.wanted? = none) :
    (change s name submission).Sends s.policy submission := by
  intro before smooth
  refine (ensures_step smooth).bind ?_ fun _ _ shown => shown
  rintro _ done ⟨task, wait, rfl, completes⟩
  exact ensures_pure (smooth.concat (.change completes (by simp [makes])))

theorem sends_make {wanted : String} {kind : Kind} (makes : submission.wanted? = some wanted) :
    (make s name wanted kind submission).Sends s.policy submission := by
  intro before smooth
  refine (ensures_step smooth).bind ?_ fun _ _ shown => shown
  rintro _ done ⟨task, wait, rfl, completes⟩
  by_cases unnamed : done.entity.id.isEmpty
  · rw [if_pos unnamed]
    exact ensures_fail (smooth.breaksDown (.nameless completes makes unnamed)).isShown
  · rw [if_neg unnamed]
    exact ensures_pure (smooth.concat (.change completes fun _ => by simpa using unnamed))

theorem Sends.faithful {p : Pipeline α} (sends : p.Sends policy submission)
    (unaccompanied : submission.upload? = none) : p.Faithful policy := by
  intro before smooth
  have ensures := sends before smooth
  rwa [Submission.reads, unaccompanied, List.append_nil] at ensures

theorem faithful_change (makes : submission.wanted? = none)
    (unaccompanied : submission.upload? = none) : (change s name submission).Faithful s.policy :=
  (sends_change makes).faithful unaccompanied

theorem faithful_upload_bind {path : String} {k : Except Files.Fault Bytes → Pipeline α}
    (sends : ∀ contents, ∃ submission, submission.upload? = some ⟨path, contents⟩ ∧
      (k contents).Sends policy submission) :
    (perform (.readFile path) >>= k).Faithful policy := by
  intro before smooth
  refine ensures_perform_bind fun contents _ => ?_
  obtain ⟨submission, accompanied, sends⟩ := sends contents
  have ensures := sends before smooth
  rwa [Submission.reads, accompanied] at ensures

end Steps

theorem faithful_withScratch {kind : String} {work : (name directory : String) → Pipeline α}
    (works : ∀ name directory, (work name directory).Faithful policy) :
    (withScratch kind work).Faithful policy := by
  refine faithful_alone_bind rfl fun name => faithful_alone_bind rfl fun made => ?_
  rcases made with fault | directory
  · rfl
  intro before smooth
  refine (works name directory before smooth).lift_bind fun h outcome explains => ?_
  refine ensures_perform_bind fun _ _ => ?_
  rcases outcome with halt | x
  · exact ensures_throw (explains.cleared rfl)
  · exact ensures_pure (explains.concat (.alone rfl rfl))

section Pipelines

variable {s : Settings}

theorem faithful_withAgentImage {environment : AgentEnvironment} {work : String → Pipeline α}
    (works : ∀ image, (work image).Faithful policy) :
    (withAgentImage environment work).Faithful policy := by
  refine faithful_withScratch fun name directory => ?_
  refine faithful_alone_bind rfl fun made => ?_
  rcases made with fault | _
  · rfl
  refine faithful_alone_bind rfl fun written => ?_
  rcases written with fault | _
  · rfl
  refine faithful_alone_bind rfl fun ran => ?_
  rcases ran with fault | ⟨_ | _, stdout, stderr⟩
  · rfl
  · rfl
  · exact faithful_emit_bind (works _)

theorem faithful_createVm {o : VmOrder} : (createVm s o).Faithful s.policy := by
  refine ((sends_make rfl).faithful rfl).bind fun vm => ?_
  refine (faithful_withAgentImage fun image => ?_).bind fun _ => ?_
  · exact faithful_upload_bind fun contents => ⟨_, rfl, sends_change rfl⟩
  · exact (faithful_change rfl rfl).bind fun _ => faithful_pure vm

theorem faithful_createStemcell {path : String} : (createStemcell s path).Faithful s.policy := by
  refine faithful_withScratch fun _ directory => ?_
  refine faithful_alone_bind rfl fun archive => ?_
  rcases archive with fault | bytes
  · rfl
  simp only [Exchange.mishap?, unpackedImage]
  rcases Archive.Stemcell.image? (.ofBytes bytes) with fault | _ | image
  · rfl
  · rfl
  refine faithful_alone_bind rfl fun written => ?_
  rcases written with fault | _
  · rfl
  refine faithful_emit_bind (faithful_upload_bind fun contents => ⟨_, rfl, sends_make rfl⟩)

theorem faithful_detachAll {vm : VmId} {disks : List DiskId} :
    (detachAll s vm disks).Faithful s.policy := by
  induction disks with
  | nil => exact faithful_pure ()
  | cons disk rest ih => exact (faithful_change rfl rfl).bind fun _ => ih

theorem faithful_isThere {c : Call} (asked : (∃ id, c = .getVm id) ∨ ∃ id, c = .getDisk id) :
    (isThere c).Faithful policy := by
  have lone : Effect.standsAlone (.call c) := by
    rcases asked with ⟨id, rfl⟩ | ⟨id, rfl⟩ <;> rfl
  refine faithful_alone_bind lone fun reply => ?_
  rcases reply with e | answer
  · have shown : Exchange.mishap? ⟨.call c, .error e⟩ =
        if e.isNotFound then none else some (.declined c e) := by
      rcases asked with ⟨id, rfl⟩ | ⟨id, rfl⟩ <;> rfl
    rw [shown]
    by_cases absent : e.isNotFound
    · rw [if_pos absent]
      dsimp only
      rw [if_pos absent]
      exact faithful_pure false
    · rw [if_neg absent]
      exact if_neg absent
  · rcases asked with ⟨id, rfl⟩ | ⟨id, rfl⟩ <;> exact faithful_pure true

theorem faithful_disksOf {vm : VmId} : (disksOf s vm).Faithful policy := by
  rw [disksOf, call, bind_assoc]
  refine faithful_alone_bind rfl fun reply => ?_
  rcases reply with e | listing
  · rfl
  · exact faithful_pure (listing.attachedTo vm)

theorem faithful_deleteVm {vm : VmId} : (deleteVm s vm).Faithful s.policy := by
  refine faithful_disksOf.bind fun disks => faithful_emit_bind ?_
  exact faithful_detachAll.bind fun _ => faithful_change rfl rfl

end Pipelines

end Pipeline
end CloudProvider
