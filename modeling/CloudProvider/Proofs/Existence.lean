import CloudProvider.Proofs.Addresses
import CloudProvider.Proofs.Admission
import CloudProvider.Proofs.Replies
import CloudProvider.Proofs.Targets
import CloudProvider.Rehearsal

/-! Asking whether a machine or a disk exists. It is one call, and its answer is never guessed: the
contents that were asked for mean that the resource is there, a refusal of the cloud as not found means
that it is gone, and after anything else the caller is told of a failure. -/

namespace CloudProvider

open Json (Value)

inductive Resource
  | vm (id : VmId)
  | disk (id : DiskId)

namespace Resource

def name : Resource → String
  | vm id => id.text
  | disk id => id.text

def action : Resource → Action
  | vm _ => Action.hasVm
  | disk _ => Action.hasDisk

def call : Resource → Call
  | vm id => .getVm id
  | disk id => .getDisk id

theorem invoke_action {r : Resource} (named : r.name ≠ "") (s : Settings) (further : List Value) :
    r.action.invoke s ⟨.string r.name :: further⟩ =
      (do return .bool (← Pipeline.isThere r.call)) := by
  let a : Arguments := ⟨.string r.name :: further⟩
  cases r with
  | vm id =>
    have taken : a.id .vm 0 = .ok id := (a.id_eq_ok_iff 0).mpr ⟨rfl, named⟩
    change Action.decoded (a.id .vm 0) >>= _ = _
    rw [taken]
    rfl
  | disk id =>
    have taken : a.id .disk 0 = .ok id := (a.id_eq_ok_iff 0).mpr ⟨rfl, named⟩
    change Action.decoded (a.id .disk 0) >>= _ = _
    rw [taken]
    rfl

theorem get?_action {t : Table} (built : Table.standard = .ok t) {method : String} (r : Resource)
    (spelled : Text.lower method = Text.lower r.action.name) : t.get? method = some r.action := by
  obtain ⟨-, registered, -⟩ := Table.get?_of_registerAll built
  rw [Table.get?_congr spelled]
  exact registered r.action (by cases r <;> simp [action, Action.standard])

end Resource

section Dispatch

open Rehearsal

variable {ρ : Type} (cloud : (c : Call) → StateM ρ (Except CloudError c.Answer))

/-- What a reply says about the existence of what it is about. -/
def presence {α : Type} : Except CloudError α → Except Halt Value
  | .ok _ => .ok (.bool true)
  | .error e => if e.isNotFound then .ok (.bool false) else .error (.failed (.cloud e))

theorem run_isThere (c : Call) :
    (do return .bool (← Pipeline.isThere c) : Pipeline Value).run =
      .step (.call c) fun reply => .done (presence reply) := by
  refine congrArg (Program.step _) (funext fun reply => ?_)
  rcases reply with e | a
  · change ((if e.isNotFound then pure false else Pipeline.fail (.cloud e) : Pipeline Bool) >>=
      fun there => pure (Value.bool there)).run =
      .done (if e.isNotFound then .ok (.bool false) else .error (.failed (.cloud e)))
    split <;> rfl
  · rfl

theorem exists_interpret_conclude (method : String) (result : Except Halt Value) (kept : Trail)
    (state : State ρ) :
    ∃ trail, ((Dispatch.conclude method result).recording kept).interpret (handle cloud) state =
      ((Dispatch.endingOf method result, trail), state) := by
  match result with
  | .ok value => exact ⟨_, rfl⟩
  | .error (.failed e) => exact ⟨_, rfl⟩
  | .error (.panicked (.severe reason)) => exact ⟨_, rfl⟩
  | .error (.panicked (.text message)) => exact ⟨_, rfl⟩
  | .error (.panicked .other) => exact ⟨_, rfl⟩
  | .error .unfinished => exact ⟨_, rfl⟩

theorem exists_interpret_isThere {t : Table} {method : String} {action : Action}
    (found : t.get? method = some action) {s : Settings} {arguments : List Value} {c : Call}
    (asks : action.invoke s ⟨arguments⟩ = (do return .bool (← Pipeline.isThere c)))
    (state : State ρ) :
    ∃ trail : Trail, (dispatch t s method arguments).interpret (handle cloud) state =
      ((Dispatch.endingOf method (presence (cloud c state.remote).1)).outcome trail,
        { state with remote := (cloud c state.remote).2 }) := by
  have called : Dispatch.call t s method arguments =
      .step (.emit (.info ("Starting " ++ method))) fun _ =>
      .step (.emit (.info ("Arguments: " ++ (Value.array arguments).render))) fun _ =>
      .step (.call c) fun reply => Dispatch.conclude method (presence reply) := by
    rw [Dispatch.call, found]
    dsimp only
    rw [asks, run_isThere]
    rfl
  let after : State ρ := { state with remote := (cloud c state.remote).2 }
  obtain ⟨trail, ends⟩ := exists_interpret_conclude cloud method
    (presence (cloud c state.remote).1)
    [⟨state.clock, .info ("Arguments: " ++ (Value.array arguments).render)⟩,
      ⟨state.clock, .info ("Starting " ++ method)⟩] after
  have recorded : (Dispatch.call t s method arguments).recorded.interpret (handle cloud) state =
      ((Dispatch.endingOf method (presence (cloud c state.remote).1), trail), after) := by
    rw [called]
    exact ends
  refine ⟨trail, ?_⟩
  rw [dispatch, Program.bind_eq, Program.interpret_bind_apply, recorded]
  rcases Dispatch.endingOf method (presence (cloud c state.remote).1) with _ | _ | _ | _ <;> rfl

theorem exists_envelope_presence {α : Type} (method : String) (heard : Except CloudError α)
    (trail : Trail) :
    ∃ envelope, (Dispatch.endingOf method (presence heard)).outcome trail = .answered envelope ∧
      (envelope.result = .bool true ↔ ∃ a, heard = .ok a) ∧
      (envelope.result = .bool false ↔ ∃ e, heard = .error e ∧ e.isNotFound = true) ∧
      (envelope.failure = none ↔ ∃ there, envelope.result = .bool there) ∧
      ∀ f, envelope.failure = some f → envelope.result = .null ∧
        ∃ e, heard = .error e ∧ f = (ActionError.cloud e).failure := by
  rcases heard with e | a
  · rcases missing : e.isNotFound with _ | _
    · refine ⟨.failed (ActionError.cloud e).failure trail.text, ?_, ?_⟩
      · rw [presence, missing]
        rfl
      · refine ⟨⟨nofun, nofun⟩, ⟨nofun, ?_⟩, ⟨nofun, nofun⟩,
          fun f same => ⟨rfl, e, rfl, (Option.some.inj same).symm⟩⟩
        rintro ⟨_, same, there⟩
        rw [← Except.error.inj same, missing] at there
        cases there
    · refine ⟨.success (.bool false) trail.text, ?_, ?_⟩
      · rw [presence, missing]
        rfl
      · simp [Envelope.success, missing]
  · exact ⟨.success (.bool true) trail.text, rfl, by simp [Envelope.success]⟩

theorem exists_answered_isThere {t : Table} {method : String} {action : Action}
    (found : t.get? method = some action) {s : Settings} {arguments : List Value} {c : Call}
    (asks : action.invoke s ⟨arguments⟩ = (do return .bool (← Pipeline.isThere c)))
    (state : State ρ) :
    ∃ envelope,
      let heard := cloud c state.remote
      let run := (dispatch t s method arguments).interpret (handle cloud) state
      run.1 = .answered envelope ∧ run.2.remote = heard.2 ∧
      (envelope.result = .bool true ↔ ∃ a, heard.1 = .ok a) ∧
      (envelope.result = .bool false ↔ ∃ e, heard.1 = .error e ∧ e.isNotFound = true) ∧
      (envelope.failure = none ↔ ∃ there, envelope.result = .bool there) ∧
      ∀ f, envelope.failure = some f → envelope.result = .null ∧
        ∃ e, heard.1 = .error e ∧ f = (ActionError.cloud e).failure := by
  obtain ⟨trail, run⟩ := exists_interpret_isThere cloud found asks state
  obtain ⟨envelope, answered, rest⟩ :=
    exists_envelope_presence method (cloud c state.remote).1 trail
  exact ⟨envelope, by rw [run, answered], by rw [run], rest⟩

end Dispatch

section Answers

open Http Rehearsal

variable {target : String} {u : Url} {reply : Except NetworkFault Answer}

variable {c : Call} {url : Url}

theorem exists_interpret_ok_iff :
    (∃ x, interpret c url reply = .ok x) ↔
      ∃ a, reply = .ok a ∧ a.isSuccess = true ∧ ∃ x, c.codec.decode a.body = .ok x := by
  rcases reply with fault | a
  · exact ⟨nofun, nofun⟩
  simp only [Except.ok.injEq, exists_eq_left']
  rcases success : a.isSuccess with _ | _
  · refine ⟨fun ⟨x, heard⟩ => ?_, nofun⟩
    rcases told : Refusal.codec.decode a.body with fault | refusal
    · rw [interpret_of_noise success told] at heard
      cases heard
    · rw [interpret_of_refusal success told] at heard
      cases heard
  · rw [interpret_of_success success, decodeContents_eq]
    cases c.codec.decode a.body <;> simp

theorem interpret_isNotFound_iff :
    (∃ e, interpret c url reply = .error e ∧ e.isNotFound = true) ↔
      ∃ a, reply = .ok a ∧ a.status = 404 ∧ ∃ refusal, Refusal.codec.decode a.body = .ok refusal := by
  rcases reply with fault | a
  · refine ⟨?_, nofun⟩
    rintro ⟨_, same, there⟩
    rw [← Except.error.inj same] at there
    cases fault <;> cases there
  simp only [Except.ok.injEq, exists_eq_left']
  rcases success : a.isSuccess with _ | _
  · rcases told : Refusal.codec.decode a.body with fault | refusal
    · rw [interpret_of_noise success told]
      simp [CloudError.isNotFound]
    · rw [interpret_of_refusal success told]
      simp [CloudError.isNotFound]
  · have found : a.status ≠ 404 := by
      intro same
      rw [Answer.isSuccess, same] at success
      cases success
    rw [interpret_of_success success, decodeContents_eq]
    cases c.codec.decode a.body <;> simp [CloudError.isNotFound, found]

theorem retry_of_interpret {e : CloudError} (failed : interpret c url reply = .error e) :
    (ActionError.cloud e).failure.retry = true ↔ (∃ fault, reply = .error fault) ∨
      ∃ a fault, reply = .ok a ∧ a.isSuccess = false ∧
        Refusal.codec.decode a.body = .error fault := by
  rcases reply with fault | a
  · rw [← Except.error.inj failed]
    exact iff_of_true (by cases fault <;> rfl) (.inl ⟨fault, rfl⟩)
  simp only [Except.ok.injEq, exists_and_left, exists_eq_left', reduceCtorEq]
  rcases success : a.isSuccess with _ | _
  · rcases told : Refusal.codec.decode a.body with fault | refusal
    · rw [interpret_of_noise success told] at failed
      rw [← Except.error.inj failed]
      simp [ActionError.failure, ActionError.verdict]
    · rw [interpret_of_refusal success told] at failed
      rw [← Except.error.inj failed]
      simp [ActionError.failure, ActionError.verdict]
  · rw [interpret_of_success success, decodeContents_eq] at failed
    rcases decoded : c.codec.decode a.body with fault | contents
    · rw [decoded] at failed
      rw [← Except.error.inj failed]
      simp [ActionError.failure, ActionError.verdict]
    · rw [decoded] at failed
      cases failed

/-- Whether a machine or a disk is there is asked by one request, if its address can be written at
all. Only the contents asked for mean that it is there, and only the cloud can tell that it is gone.
After everything else the caller knows nothing, and is advised to ask a second time if the request has
been sent and the cloud has not been heard. -/
theorem hasResource_exact (target_is : IsInterface target u) (r : Resource) (named : r.name ≠ "")
    {method : String} (spelled : Text.lower method = Text.lower r.action.name) (s : Settings)
    (further : List Value) (reply : Except NetworkFault Answer) (state : State (List Http.Request)) :
    ∃ t login address envelope, Table.standard = .ok t ∧
      destination target r.call = some (login, address) ∧ address.scheme = u.scheme ∧
      address.host = u.host ∧ address.port = u.port ∧
      let sends := address.text.utf8ByteSize ≤ Url.lengthLimit
      let run := (dispatch t s method (.string r.name :: further)).interpret
        (handle (Http.answer (replying reply) target)) state
      run.1 = .answered envelope ∧
      run.2.remote = state.remote ++ (if sends then [⟨.get, address, login, .nothing⟩] else []) ∧
      (envelope.result = .bool true ↔ sends ∧ ∃ a, reply = .ok a ∧ a.isSuccess = true ∧
        ∃ contents, r.call.codec.decode a.body = .ok contents) ∧
      (envelope.result = .bool false ↔ sends ∧ ∃ a, reply = .ok a ∧ a.status = 404 ∧
        ∃ refusal, Refusal.codec.decode a.body = .ok refusal) ∧
      (envelope.failure = none ↔ ∃ there, envelope.result = .bool there) ∧
      ∀ f, envelope.failure = some f → envelope.result = .null ∧
        (sends → (f.retry = true ↔ (∃ fault, reply = .error fault) ∨
          ∃ a fault, reply = .ok a ∧ a.isSuccess = false ∧
            Refusal.codec.decode a.body = .error fault)) := by
  obtain ⟨t, built⟩ := Table.exists_standard
  have found := r.get?_action built spelled
  obtain ⟨login, address, goes, scheme, host, port⟩ := exists_destination target_is r.call
  obtain ⟨envelope, answered, remote, there, missing, whole, failing⟩ :=
    exists_answered_isThere (Http.answer (replying reply) target) found
      (r.invoke_action named s further) state
  have asked : request target r.call = if address.text.utf8ByteSize ≤ Url.lengthLimit then
      .ok ⟨.get, address, login, .nothing⟩ else .error (.unusable address) := by
    cases r <;> exact request_of_destination target_is goes rfl rfl
  rw [answer_replying, asked] at remote there missing failing
  refine ⟨t, login, address, envelope, built, goes, scheme, host, port, answered, ?_⟩
  by_cases sends : address.text.utf8ByteSize ≤ Url.lengthLimit
  · rw [if_pos sends] at remote there missing failing
    refine ⟨by rw [remote, if_pos sends], ?_, ?_, whole, fun f failed => ?_⟩
    · exact there.trans (exists_interpret_ok_iff.trans (and_iff_right sends).symm)
    · exact missing.trans (interpret_isNotFound_iff.trans (and_iff_right sends).symm)
    · obtain ⟨nothing, e, heard, rfl⟩ := failing f failed
      exact ⟨nothing, fun _ => retry_of_interpret heard⟩
  · rw [if_neg sends] at remote there missing failing
    refine ⟨by rw [remote, if_neg sends, List.append_nil], ?_, ?_, whole, fun f failed => ?_⟩
    · exact there.trans (iff_of_false nofun fun ⟨short, _⟩ => sends short)
    · refine missing.trans (iff_of_false ?_ fun ⟨short, _⟩ => sends short)
      rintro ⟨_, same, gone⟩
      rw [← Except.error.inj same] at gone
      cases gone
    · exact ⟨(failing f failed).1, fun short => absurd short sends⟩

def telling : Bytes :=
  Text.Utf8.encode "\x7b\"id\":\"vm_1\",\"name\":\"n\",\"state\":\"STARTED\",\"flavor\":\"f\"\x7d"

theorem exists_decode_telling : ∃ vm, Vm.codec.decode telling = .ok vm := by
  have decoded : (Vm.codec.decode telling).toOption.isSome = true := by decide +kernel
  cases h : Vm.codec.decode telling with
  | ok vm => exact ⟨vm, rfl⟩
  | error fault => rw [h] at decoded; cases decoded

theorem parseAuthority_bare :
    (Url.parseAuthority "http" "esx.test:9000".toList).isSome = true := by
  decide +kernel

theorem unmarked_bare :
    ∀ c ∈ "esx.test:9000".toList, c ∉ Url.marks ∧ c ≠ '@' := by
  have free : "esx.test:9000".toList.all (fun c => !Url.marks.contains c && c ≠ '@') = true := by
    decide +kernel
  simpa using List.all_eq_true.mp free

def bare : Root where
  place := "esx.test:9000".toList
  authority := (Url.parseAuthority "http" "esx.test:9000".toList).get parseAuthority_bare
  names := []
  slashes := 0
  parsed := (Option.some_get parseAuthority_bare).symm
  unmarked := unmarked_bare
  plain := List.forall_mem_nil _

theorem bare_text : bare.text = "http://esx.test:9000" := by
  decide +kernel

theorem hasResource_exact_vm :
    ∃ t envelope, Table.standard = .ok t ∧
      let run := (dispatch t modest "Has_VM" [.string "vm_1"]).interpret
        (handle (Http.answer (replying (.ok ⟨200, telling⟩)) "http://esx.test:9000"))
        (State.start [] ⟨0, 0⟩)
      run.2.remote.map (·.url.text) = ["http://esx.test:9000/v1/vms/vm_1"] ∧
      run.1 = .answered envelope ∧ envelope.result = .bool true := by
  let u := (Url.parse (base "http://esx.test:9000")).get (by decide +kernel)
  have target_is : IsInterface "http://esx.test:9000" u :=
    ⟨(Option.some_get _).symm, by decide +kernel, by decide +kernel, by decide +kernel⟩
  have spelled : Text.lower "Has_VM" = Text.lower (Resource.vm ⟨"vm_1"⟩).action.name := by
    decide +kernel
  obtain ⟨t, login, address, envelope, built, goes, -, -, -, answered, remote, there, -⟩ :=
    hasResource_exact target_is (.vm ⟨"vm_1"⟩) (by decide) spelled
      modest [] (.ok ⟨200, telling⟩) (State.start [] ⟨0, 0⟩)
  have place : (destination "http://esx.test:9000" (.getVm ⟨"vm_1"⟩)).map (·.2.text) =
      some "http://esx.test:9000/v1/vms/vm_1" := by
    decide +kernel
  rw [show destination "http://esx.test:9000" (.getVm ⟨"vm_1"⟩) = _ from goes] at place
  have written : address.text = "http://esx.test:9000/v1/vms/vm_1" := Option.some.inj place
  have sends : address.text.utf8ByteSize ≤ Url.lengthLimit := by
    rw [written]
    decide +kernel
  rw [if_pos sends] at remote
  exact ⟨t, envelope, built, (congrArg (List.map (·.url.text)) remote).trans
    (congrArg (fun text => [text]) written), answered,
    there.mpr ⟨sends, _, rfl, rfl, exists_decode_telling⟩⟩

def lengthy : VmId :=
  ⟨String.ofList (List.replicate Url.lengthLimit 'a')⟩

theorem lengthy_letters : lengthy.text.toList = List.replicate Url.lengthLimit 'a' :=
  String.toList_ofList

theorem lengthy_ne : lengthy.text ≠ "" := by
  intro empty
  have none := lengthy_letters.symm.trans (congrArg String.toList empty)
  cases none

theorem addressable_lengthy : (Call.getVm lengthy).Addressable where
  plain name member := by
    obtain rfl := Option.some.inj member
    refine .of_letters lengthy_ne ?_
    rw [lengthy_letters, List.all_replicate]
    rfl
  ended last isLast char ends := by
    obtain rfl : lengthy.text = last := Option.some.inj isLast
    rw [lengthy_letters, List.getLast?_replicate] at ends
    obtain rfl := Option.some.inj ends
    decide

theorem utf8ByteSize_lengthy : lengthy.text.utf8ByteSize = Url.lengthLimit := by
  have size : ∀ n, (String.ofList (List.replicate n 'a')).utf8ByteSize = n := by
    intro n
    induction n with
    | zero => rfl
    | succ n ih =>
      rw [List.replicate_succ, String.ofList_cons, String.utf8ByteSize_append,
        String.utf8ByteSize_singleton, ih, Nat.add_comm]
      rfl
  exact size _

theorem isSendable_lengthy : (bare.url (.getVm lengthy)).isSendable = false := by
  have escaped : Url.escaped lengthy.text = lengthy.text := by
    rw [Url.escaped, Url.escapeName, lengthy_letters, Text.Percent.encode_of_forall]
    · rfl
    · intro c member
      obtain rfl := List.eq_of_mem_replicate member
      decide
  have path : (bare.url (.getVm lengthy)).pathText = "/v1/vms/" ++ lengthy.text := by
    have names : (bare.url (.getVm lengthy)).path = .names ["v1", "vms", Url.escaped lengthy.text] := by
      have kept : Url.escaped "v1" = "v1" ∧ Url.escaped "vms" = "vms" := by decide +kernel
      conv_rhs => rw [← kept.1, ← kept.2]
      rfl
    have hosted : (bare.url (.getVm lengthy)).host.isNone = false := rfl
    simp only [Url.pathText, names, escaped, hosted]
    simp [← String.append_assoc]
  have long : Url.lengthLimit < (bare.url (.getVm lengthy)).text.utf8ByteSize := by
    simp only [Url.text, String.utf8ByteSize_append, path, utf8ByteSize_lengthy]
    have lead : ("/v1/vms/" : String).utf8ByteSize = 8 := rfl
    omega
  rw [Url.isSendable, decide_eq_false (Nat.not_le.mpr long)]
  simp

theorem request_lengthy :
    request "http://esx.test:9000" (.getVm lengthy) =
      .error (.unusable (bare.url (.getVm lengthy))) := by
  rw [← bare_text, bare.request_eq _ addressable_lengthy, isSendable_lengthy]
  rfl

theorem hasResource_unasked :
    lengthy.text ≠ "" ∧ (∃ vm, Vm.codec.decode telling = .ok vm) ∧
    ∃ t envelope, Table.standard = .ok t ∧
      let run := (dispatch t modest "has_vm" [.string lengthy.text]).interpret
        (handle (Http.answer (replying (.ok ⟨200, telling⟩)) "http://esx.test:9000"))
        (State.start [] ⟨0, 0⟩)
      run.2.remote = [] ∧ run.1 = .answered envelope ∧ envelope.result = .null := by
  obtain ⟨t, built⟩ := Table.exists_standard
  have found := (Resource.vm lengthy).get?_action built rfl
  obtain ⟨envelope, answered, remote, there, missing, whole, failing⟩ :=
    exists_answered_isThere
      (Http.answer (replying (.ok ⟨200, telling⟩)) "http://esx.test:9000") found
      ((Resource.vm lengthy).invoke_action lengthy_ne modest []) (State.start [] ⟨0, 0⟩)
  rw [answer_replying, show request _ (Resource.vm lengthy).call = _ from request_lengthy]
    at remote there missing failing
  refine ⟨lengthy_ne, exists_decode_telling, t, envelope, built, remote, answered, ?_⟩
  cases failed : envelope.failure with
  | some f => exact (failing f failed).1
  | none =>
    obtain ⟨_ | _, told⟩ := whole.mp failed
    · obtain ⟨_, same, gone⟩ := missing.mp told
      rw [← Except.error.inj same] at gone
      cases gone
    · obtain ⟨_, same⟩ := there.mp told
      cases same

end Answers
end CloudProvider
