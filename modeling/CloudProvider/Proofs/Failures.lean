import CloudProvider.Proofs.Breakdowns
import CloudProvider.Proofs.Envelopes
import CloudProvider.Proofs.Requests
import CloudProvider.Proofs.Signatures

/-! What the caller is told of a request that fails: the first mishap of the run, what kind of failure
it is, and whether the same request may be sent again. It may if and only if nobody knows what has
become of the call or the task that went wrong. -/

namespace CloudProvider

open Json (Value)

/-- What goes wrong first: something with the arguments, which are looked at before there are any
dealings, or else what the dealings show. -/
inductive FirstMishap (policy : Policy) (fault? : Option ArgumentFault) : History → Mishap → Prop
  | argument {fault : ArgumentFault} (found : fault? = some fault) :
      FirstMishap policy fault? [] (.argument fault)
  | later {h : History} {m : Mishap} (fitting : fault? = none) (breaks : BreaksDown policy h m) :
      FirstMishap policy fault? h m

theorem FirstMishap.unique {policy : Policy} {fault? : Option ArgumentFault} {h : History}
    {m m' : Mishap} (first : FirstMishap policy fault? h m) (also : FirstMishap policy fault? h m') :
    m = m' := by
  cases first with
  | argument found =>
    cases also with
    | argument found' =>
      obtain rfl := Option.some.inj (found.symm.trans found')
      rfl
    | later fitting => cases fitting.symm.trans found
  | later fitting breaks =>
    cases also with
    | argument found => cases fitting.symm.trans found
    | later _ breaks' => exact breaks.unique breaks'

namespace Pipeline

variable {α β : Type} {policy : Policy} {fault? more : Option ArgumentFault}

/-- The result is explained by the arguments or by the dealings. -/
def Accounts (policy : Policy) (fault? : Option ArgumentFault) (h : History) : Except Halt α → Prop
  | .ok _ => fault? = none ∧ Smooth policy h
  | .error halt => halt = .unfinished ∨ ∃ m, FirstMishap policy fault? h m ∧ halt = m.halt

/-- From the start the pipeline comes to what is accounted for. -/
def Accountable (policy : Policy) (fault? : Option ArgumentFault) (p : Pipeline α) : Prop :=
  p.Ensures [] (Accounts policy fault?)

theorem Faithful.accountable {p : Pipeline α} (faithful : p.Faithful policy) :
    p.Accountable policy none := by
  refine (faithful [] (smooth_nil policy)).mono fun h result explains => ?_
  cases result with
  | ok _ => exact ⟨rfl, explains⟩
  | error halt => exact explains.imp_right fun ⟨m, breaks, same⟩ => ⟨m, .later rfl breaks, same⟩

theorem accountable_fail_argument (fault : ArgumentFault) :
    (fail (.invalidArgument fault) : Pipeline α).Accountable policy (some fault) :=
  ensures_fail (.inr ⟨_, .argument rfl, rfl⟩)

theorem accountable_decoded_bind {r : Except ArgumentFault α} {k : α → Pipeline β}
    (rest : ∀ x, r = .ok x → (k x).Accountable policy more) :
    (Action.decoded r >>= k).Accountable policy ((ArgumentFault.of r).or more) := by
  cases r with
  | error fault => exact accountable_fail_argument fault
  | ok x => exact rest x rfl

/-- The rule for all actions whose arguments are faulty only by their signature. -/
theorem accountable_decoded {a : Arguments} {name : String} {r : Except ArgumentFault α}
    {k : α → Pipeline β} (other : name ≠ "create_disk")
    (taken : ArgumentFault.of r = (Action.signature name).fault? a)
    (rest : ∀ x, (k x).Accountable policy none) :
    (Action.decoded r >>= k).Accountable policy (Action.fault? name a) := by
  rw [Action.fault?, if_neg other, ← taken]
  exact accountable_decoded_bind fun x _ => rest x

theorem Accountable.map {p : Pipeline α} (accountable : p.Accountable policy fault?) (f : α → β) :
    (p >>= fun x => pure (f x)).Accountable policy fault? :=
  Ensures.bind accountable (fun _ _ ⟨fitting, smooth⟩ => ensures_pure ⟨fitting, smooth⟩)
    fun _ _ accounts => accounts

theorem accountable_createDisk {s : Settings} {megabytes : UInt64} {properties : DiskProperties}
    {vm : Option VmId} :
    (createDisk s megabytes properties vm).Accountable s.policy
      (ArgumentFault.of (orderedCapacity megabytes)) := by
  rw [createDisk]
  cases orderedCapacity megabytes with
  | error fault => exact accountable_fail_argument fault
  | ok gigabytes => exact ((sends_make rfl).faithful rfl).accountable

end Pipeline

namespace Action

open Arguments Pipeline

theorem accountable_of_mem {action : Action} (mem : action ∈ standard) (s : Settings)
    (a : Arguments) : (action.invoke s a).Accountable s.policy (fault? action.name a) := by
  simp only [standard, List.mem_cons, List.not_mem_nil, or_false] at mem
  rcases mem with rfl | rfl | rfl | rfl | rfl | rfl | rfl | rfl | rfl | rfl | rfl | rfl | rfl
  · exact accountable_decoded (by decide) (of_single (of_required ..)) fun _ =>
      faithful_createStemcell.accountable.map _
  · exact accountable_decoded (by decide) (of_single (of_id ..)) fun _ =>
      (faithful_change rfl rfl).accountable.map _
  · rw [fault?_createDisk]
    refine accountable_decoded_bind fun order taken => ?_
    rw [sizeFault?_of_diskRequest taken]
    exact accountable_createDisk.map _
  · exact accountable_decoded (by decide) (of_single (of_id ..)) fun _ =>
      (faithful_change rfl rfl).accountable.map _
  · exact accountable_decoded (by decide) (of_single (of_id ..)) fun disk =>
      (faithful_isThere (.inr ⟨disk, rfl⟩)).accountable.map _
  · exact accountable_decoded (by decide) (of_pair a) fun _ =>
      (faithful_change rfl rfl).accountable.map _
  · exact accountable_decoded (by decide) (of_pair a) fun _ =>
      (faithful_change rfl rfl).accountable.map _
  · exact accountable_decoded (by decide) (of_single (of_id ..)) fun _ =>
      faithful_disksOf.accountable.map _
  · exact accountable_decoded (by decide) (of_vmOrder a) fun _ =>
      faithful_createVm.accountable.map _
  · exact accountable_decoded (by decide) (of_single (of_id ..)) fun _ =>
      faithful_deleteVm.accountable.map _
  · exact accountable_decoded (by decide) (of_single (of_id ..)) fun vm =>
      (faithful_isThere (.inl ⟨vm, rfl⟩)).accountable.map _
  · exact accountable_decoded (by decide) (of_single (of_id ..)) fun _ =>
      (faithful_change rfl rfl).accountable.map _
  · exact accountable_decoded (by decide) (of_single (of_optional ..)) fun _ =>
      (faithful_emit_bind (faithful_pure Value.null)).accountable

end Action

section Texts

def Occurs (part whole : String) : Prop :=
  ∃ front back, whole = front ++ part ++ back

variable {part whole : String}

theorem occurs_self (part : String) : Occurs part part :=
  ⟨"", "", by simp⟩

theorem Occurs.before (occurs : Occurs part whole) (more : String) : Occurs part (whole ++ more) := by
  obtain ⟨front, back, rfl⟩ := occurs
  exact ⟨front, back ++ more, String.append_assoc ..⟩

theorem Occurs.behind (occurs : Occurs part whole) (more : String) : Occurs part (more ++ whole) := by
  obtain ⟨front, back, rfl⟩ := occurs
  exact ⟨more ++ front, back, by simp only [String.append_assoc]⟩

def Trouble.causes : Trouble → List String
  | .undecodable fault | .malformed fault => [fault.message]
  | .unscripted key => [key]
  | .unopened path reason => [path, reason]
  | .nameless task wanted => [task.text, wanted]
  | .recoveredPanic method panic => [method, panic]
  | .stated cause => [cause]

def CloudError.causes : CloudError → List String
  | .refused refusal _ => [refusal.code, refusal.message]
  | .transport _ body => [body]
  | .taskFailed task => [task.id.text]
  | .taskTimeout task => [task.text]
  | .internal trouble => trouble.causes

theorem Trouble.occurs_of_mem_causes {trouble : Trouble} {cause : String}
    (mem : cause ∈ trouble.causes) : Occurs cause trouble.message := by
  cases trouble <;> simp only [causes, List.mem_cons, List.not_mem_nil, or_false] at mem
  case undecodable fault => exact mem ▸ (occurs_self _).behind _
  case malformed fault => exact mem ▸ occurs_self _
  case unscripted key => exact mem ▸ (occurs_self _).behind _
  case unopened path reason =>
    rcases mem with rfl | rfl
    · exact (((occurs_self _).behind _).before _).before _
    · exact (occurs_self _).behind _
  case nameless task wanted =>
    rcases mem with rfl | rfl
    · exact (((occurs_self _).behind _).before _).before _
    · exact (occurs_self _).behind _
  case recoveredPanic method panic =>
    rcases mem with rfl | rfl
    · exact (((occurs_self _).behind _).before _).before _
    · exact (occurs_self _).behind _
  case stated cause => exact mem ▸ occurs_self _

theorem CloudError.occurs_of_mem_causes {e : CloudError} {cause : String}
    (mem : cause ∈ e.causes) : Occurs cause e.message := by
  cases e with
  | refused refusal status =>
    simp only [causes, List.mem_cons, List.not_mem_nil, or_false] at mem
    rcases mem with rfl | rfl
    · exact ((((((occurs_self _).behind _).before _).before _).before _).before _).before _
    · exact ((((occurs_self _).behind _).before _).before _).before _
  | transport status body =>
    obtain rfl := List.mem_singleton.mp mem
    exact (occurs_self _).behind _
  | taskFailed task =>
    obtain rfl := List.mem_singleton.mp mem
    exact ((occurs_self _).behind _).before _
  | taskTimeout task =>
    obtain rfl := List.mem_singleton.mp mem
    exact ((occurs_self _).behind _).before _
  | internal trouble => exact trouble.occurs_of_mem_causes mem

/-- What has to be found again in the message of an error. -/
def ActionError.causes : ActionError → List String
  | .cloud e => e.causes
  | .invalidArgument (.noImage path) => [path]
  | .invalidArgument fault => [fault.message]
  | .declared _ _ message => [message]
  | .io fault => [fault.message]
  | .command program output => [program, output]

theorem ActionError.occurs_of_mem_causes {e : ActionError} {cause : String}
    (mem : cause ∈ e.causes) : Occurs cause e.message := by
  cases e with
  | cloud e => exact e.occurs_of_mem_causes mem
  | invalidArgument fault =>
    cases fault with
    | noImage path =>
      obtain rfl := List.mem_singleton.mp mem
      exact ((occurs_self _).behind _).before _
    | _ =>
      obtain rfl := List.mem_singleton.mp mem
      exact occurs_self _
  | declared kind retry message => exact List.mem_singleton.mp mem ▸ occurs_self _
  | io fault => exact List.mem_singleton.mp mem ▸ occurs_self _
  | command program output =>
    simp only [causes, List.mem_cons, List.not_mem_nil, or_false] at mem
    rcases mem with rfl | rfl
    · exact (((occurs_self _).behind _).before _).before _
    · exact (occurs_self _).behind _

end Texts

def CloudError.isUnsettled : CloudError → Bool
  | .transport _ _ | .taskTimeout _ => true
  | _ => false

/-- A submission or a reading that was answered so, a wait that has run out of time, or the last of too
many failed polls. -/
def Mishap.IsUnsettled : Mishap → Prop
  | .declined _ e | .exhausted e => e.isUnsettled
  | .late _ => True
  | _ => False

/-- How the caller can tell errors apart. No mishap declares for itself what it is. -/
def ActionError.IsClassified (f : Failure) : ActionError → Prop
  | .cloud (.transport _ _) | .cloud (.taskTimeout _) => f.kind = .cloudError ∧ f.retry = true
  | .cloud (.refused _ _) | .cloud (.taskFailed _) => f.kind = .cloudError ∧ f.retry = false
  | .cloud (.internal _) | .invalidArgument _ | .io _ | .command _ _ =>
    f.kind = .cpiError ∧ f.retry = false
  | .declared _ _ _ => False

namespace Mishap

structure IsTold (m : Mishap) (method : String) (f : Failure) : Prop where
  told :
    match m.halt with
    | .failed e => f.message = e.message ∧ (∀ cause ∈ e.causes, Occurs cause f.message) ∧
      e.IsClassified f
    | .panicked panic => f.message = "Recovered panic in " ++ method ++ ": " ++
      Dispatch.panicText panic ∧ f.kind = .cpiError ∧ f.retry = false
    | .unfinished => False
  retry : f.retry = true ↔ m.IsUnsettled

variable {m : Mishap} {method : String} {f : Failure}

theorem isClassified_of_halt {e : ActionError} (halts : m.halt = .failed e) :
    e.IsClassified e.failure := by
  have cloud (e : CloudError) : (ActionError.cloud e).IsClassified (ActionError.cloud e).failure := by
    cases e <;> exact ⟨rfl, rfl⟩
  cases m <;> cases halts <;> first | exact cloud _ | exact ⟨rfl, rfl⟩

theorem retry_iff (ended : Dispatch.endingOf method (.error m.halt) = .failure f) :
    f.retry = true ↔ m.IsUnsettled := by
  have cloud (e : CloudError) : (ActionError.cloud e).failure.retry = true ↔ e.isUnsettled := by
    cases e <;> simp [ActionError.failure, ActionError.verdict, CloudError.isUnsettled]
  cases m <;> obtain rfl := Dispatch.Ending.failure.inj ended
  case declined c e => exact cloud e
  case exhausted e => exact cloud e
  case late id => exact iff_of_true rfl trivial
  all_goals exact iff_of_false Bool.false_ne_true id

theorem isTold_of_ending (ended : Dispatch.endingOf method (.error m.halt) = .failure f) :
    m.IsTold method f where
  told := by
    cases halts : m.halt with
    | failed e =>
      rw [halts] at ended
      obtain rfl := Dispatch.Ending.failure.inj ended
      exact ⟨rfl, fun cause mem => e.occurs_of_mem_causes mem, isClassified_of_halt halts⟩
    | panicked panic =>
      rw [halts] at ended
      cases panic with
      | severe reason => cases ended
      | text message =>
        obtain rfl := Dispatch.Ending.failure.inj ended
        exact ⟨rfl, rfl, rfl⟩
      | other =>
        obtain rfl := Dispatch.Ending.failure.inj ended
        exact ⟨rfl, rfl, rfl⟩
    | unfinished =>
      rw [halts] at ended
      cases ended
  retry := retry_iff ended

end Mishap

section Dispatch

variable {t : Table} {s : Settings} {method : String} {arguments : List Value} {w : Surroundings}
  {action : Action}

theorem exists_accounted (unhurried : w.IsUnhurried) (found : t.get? method = some action)
    (standard : action ∈ Action.standard) :
    ∃ result trail,
      ((dispatch t s method arguments).play w []).1 =
        (Dispatch.endingOf method result).outcome trail ∧
      Pipeline.Accounts s.policy (Action.fault? action.name ⟨arguments⟩)
        ((dispatch t s method arguments).play w []).2.dealings result := by
  obtain ⟨h, grown, accounts⟩ := Action.accountable_of_mem standard s ⟨arguments⟩ (w.behind [])
    (unhurried.behind []) (.told (Dispatch.opening method arguments))
  rw [play_dispatch_of_found t s method arguments w [] found]
  refine ⟨_, _, rfl, ?_⟩
  have own : (Dispatch.invoked s method arguments w [] action).2.dealings = h.dealings := by
    rw [Dispatch.invoked, grown, History.dealings_append, History.dealings_told, List.nil_append]
  rw [Surroundings.dealings_overhear, History.dealings_append, own, History.dealings_told,
    List.append_nil]
  exact accounts

theorem Dispatch.exists_failure_of_answered {halt : Halt} {trail : Trail} {envelope : Envelope}
    (answered : (endingOf method (.error halt)).outcome trail = .answered envelope) :
    ∃ f, endingOf method (.error halt) = .failure f ∧ envelope = .failed f trail.text := by
  match halt with
  | .failed e | .panicked (.text message) | .panicked .other =>
    exact ⟨_, rfl, (Outcome.answered.inj answered).symm⟩
  | .panicked (.severe reason) | .unfinished => cases answered

theorem isTold_of_accounts {fault? : Option ArgumentFault} {h : History} {halt : Halt}
    {trail : Trail} {envelope : Envelope}
    (answered : (Dispatch.endingOf method (.error halt)).outcome trail = .answered envelope)
    (accounts : Pipeline.Accounts s.policy fault? h (.error halt : Except Halt Value)) :
    ∃ f m, envelope = .failed f trail.text ∧ FirstMishap s.policy fault? h m ∧
      m.IsTold method f := by
  obtain ⟨f, ended, sealed⟩ := Dispatch.exists_failure_of_answered answered
  rcases accounts with rfl | ⟨m, first, rfl⟩
  · cases ended
  · exact ⟨f, m, sealed, first, Mishap.isTold_of_ending ended⟩

/-- A request for a standard action that fails tells the first mishap of its run, and one that
succeeds has met none. The surroundings may be any in which nothing cuts short a rest that heeds no
signal. -/
theorem dispatch_truthful :
    ∃ t, Table.standard = .ok t ∧
    ∀ (s : Settings) (method : String) (arguments : List Value) (w : Surroundings),
      w.IsUnhurried →
      let run := (dispatch t s method arguments).play w []
      ∀ envelope, run.1 = .answered envelope →
        (envelope.failure = none → ∃ action, t.get? method = some action ∧
          Action.fault? action.name ⟨arguments⟩ = none ∧ Smooth s.policy run.2.dealings) ∧
        ∀ failure, envelope.failure = some failure →
          envelope.result = .null ∧
          (t.get? method = none → failure = ⟨.notImplemented,
            "Method " ++ method ++ " not implemented in esxcloud CPI.", false⟩) ∧
          ∀ action, t.get? method = some action →
            let IsFirst := FirstMishap s.policy (Action.fault? action.name ⟨arguments⟩) run.2.dealings
            ∃ m, IsFirst m ∧ (∀ other, IsFirst other → other = m) ∧ m.IsTold method failure := by
  obtain ⟨t, built⟩ := Table.exists_standard
  obtain ⟨-, -, only⟩ := Table.get?_of_registerAll built
  refine ⟨t, built, fun s method arguments w unhurried => ?_⟩
  intro run envelope answered
  cases found : t.get? method with
  | none =>
    have sealed : run.1 = _ := congrArg Prod.fst (play_dispatch t s method arguments w [])
    rw [Dispatch.play_call_of_missing found, answered] at sealed
    obtain rfl := Dispatch.Outcome.answered.inj sealed
    refine ⟨fun free => (by cases free), fun failure told => ?_⟩
    obtain rfl := Option.some.inj told
    exact ⟨rfl, fun _ => rfl, fun _ present => (by cases present)⟩
  | some action =>
    have standard : action ∈ Action.standard := by
      rcases only method action found with none | mem
      · cases none
      · exact mem
    obtain ⟨result, trail, ended, accounts⟩ := exists_accounted unhurried found standard
    have answered := ended.symm.trans answered
    cases result with
    | ok value =>
      obtain rfl := Dispatch.Outcome.answered.inj answered
      exact ⟨fun _ => ⟨action, rfl, accounts⟩, fun failure told => (by cases told)⟩
    | error halt =>
      obtain ⟨f, m, rfl, first, told⟩ := isTold_of_accounts answered accounts
      refine ⟨fun free => (by cases free), fun failure same => ?_⟩
      obtain rfl := Option.some.inj same
      refine ⟨rfl, fun absent => (by cases absent), fun other held => ?_⟩
      obtain rfl := Option.some.inj held
      exact ⟨m, first, fun _ also => also.unique first, told⟩

def modest : Settings := ⟨"p1", .blank, Wait.brief⟩

def unanswering : Surroundings :=
  .polling 0 ⟨"t1"⟩ Wait.recovering

theorem dispatch_truthful_unanswering :
    ∃ t envelope m, Table.standard = .ok t ∧
      ((dispatch t modest "has_vm" [.string "vm-1"]).play unanswering []).1 = .answered envelope ∧
      envelope.failure =
        some ⟨.cloudError, "esxcloud: HTTP error: no answer", true⟩ ∧
      FirstMishap modest.policy none
        ((dispatch t modest "has_vm" [.string "vm-1"]).play unanswering []).2.dealings m ∧
      m.IsUnsettled := by
  obtain ⟨t, built, truthful⟩ := dispatch_truthful
  have found : t.get? "has_vm" = some Action.hasVm :=
    (Table.get?_of_registerAll built).2.1 Action.hasVm (by simp [Action.standard])
  have result : (Dispatch.invoked modest "has_vm" [.string "vm-1"] unanswering [] Action.hasVm).1 =
      .error (.failed (.cloud (.transport none "no answer"))) := rfl
  have answered := congrArg Prod.fst
    (play_dispatch_of_found t modest "has_vm" [.string "vm-1"] unanswering [] found)
  dsimp only at answered
  rw [result] at answered
  obtain ⟨-, failing⟩ := truthful modest "has_vm" [.string "vm-1"] unanswering
    (Surroundings.polling_keepsTime 0 ⟨"t1"⟩ Wait.recovering).rests _ answered
  obtain ⟨-, -, present⟩ := failing _ rfl
  obtain ⟨m, first, -, told⟩ := present Action.hasVm found
  exact ⟨t, _, m, built, answered, rfl, first, told.retry.mp rfl⟩

end Dispatch
end CloudProvider
