import CloudProvider.ActionError
import CloudProvider.Config
import CloudProvider.Proofs.Replies
import CloudProvider.Proofs.Targets

/-! Calls that fail on this side. A request that cannot be made is never sent: its file cannot be opened,
or target and path together are no address to which a message can be sent. The first is reported as
trouble on this side. The second is not: it is told like a request that nobody has answered, so that the
caller is advised to try again. -/

namespace CloudProvider.Http

/-- Where a message goes whose address has been read, and the login that it takes along. -/
def addressed (c : Call) (url : Url) : Option (String × String) × Url :=
  let (login, url) := url.takeLogin
  (login, if c.route.forced then url.withParameter "force" "true" else url)

/-- Target and path together are an address of the web to which a message can be sent. -/
def Reaches (target : String) (c : Call) : Prop :=
  ∃ url, Url.parse (base target ++ c.route.path) = some url ∧ url.hasHost = true ∧
    (addressed c url).2.isSendable = true

section Requests

variable {target : String} {c : Call} {payload : Payload}

theorem unopened_of_payload {fault : RequestFault} (failed : c.payload = .error fault) :
    ∃ path cause, fault = .unopened path cause := by
  have part {upload : Upload} {fault : RequestFault}
      (failed : Submission.filePart upload = .error fault) :
      ∃ path cause, fault = .unopened path cause := by
    unfold Submission.filePart at failed
    extract_lets part at failed
    split at failed
    · split at failed
      · exact ⟨_, _, (Except.error.inj failed).symm⟩
      · cases failed
    · cases failed
  rcases c with id | submission | id | id | project
  case submit =>
    cases submission with
    | attachIso id iso =>
      rcases carried : Submission.filePart iso with other | file <;>
        simp only [Call.payload, Submission.payload, carried] at failed
      · obtain rfl := Except.error.inj failed
        exact part carried
      · cases failed
    | createImage image name =>
      rcases carried : Submission.filePart image with other | file <;>
        simp only [Call.payload, Submission.payload, carried] at failed
      · obtain rfl := Except.error.inj failed
        exact part carried
      · cases failed
    | _ => cases failed
  all_goals cases failed

theorem request_of_unopened {fault : RequestFault} (failed : c.payload = .error fault) :
    request target c = .error fault := by
  rw [request, failed]
  rfl

theorem request_of_reaches (carried : c.payload = .ok payload) (reaches : Reaches target c) :
    ∃ login address, request target c = .ok ⟨c.route.method, address, login, payload⟩ := by
  obtain ⟨url, read, hosted, sendable⟩ := reaches
  refine ⟨(addressed c url).1, (addressed c url).2, ?_⟩
  simp only [addressed] at sendable
  simp [request, carried, read, hosted, addressed, sendable]

theorem request_of_not_reaches (carried : c.payload = .ok payload) (lost : ¬ Reaches target c) :
    ∃ fault cause, request target c = .error fault ∧ fault.cloudError = .transport none cause := by
  rcases read : Url.parse (base target ++ c.route.path) with _ | url
  · refine ⟨.noUrl, "builder error", ?_, rfl⟩
    simp [request, carried, read]
    rfl
  cases hosted : url.hasHost with
  | false =>
    refine ⟨.unusable url, "builder error for url (" ++ url.text ++ ")", ?_, rfl⟩
    simp [request, carried, read, hosted]
    rfl
  | true =>
    have unsendable : (addressed c url).2.isSendable = false := by
      simpa [Reaches, read, hosted] using lost
    refine ⟨.unusable (addressed c url).2, "builder error for url (" ++ (addressed c url).2.text ++ ")",
      ?_, rfl⟩
    simp only [addressed] at unsendable
    simp [request, carried, read, hosted, addressed, unsendable]
    rfl

end Requests

theorem exists_unheard_iff {c : Call} {url : Url} {reply : Except NetworkFault Answer} :
    (∃ cause, interpret c url reply = .error (.transport none cause)) ↔
      ∃ fault, reply = .error fault := by
  rcases reply with fault | a
  · exact iff_of_true (by cases fault <;> exact ⟨_, rfl⟩) ⟨fault, rfl⟩
  refine iff_of_false ?_ nofun
  rintro ⟨cause, unheard⟩
  rcases success : a.isSuccess with _ | _
  · rcases told : Refusal.codec.decode a.body with fault | refusal
    · rw [interpret_of_noise success told] at unheard
      cases unheard
    · rw [interpret_of_refusal success told] at unheard
      cases unheard
  · rw [interpret_of_success success, decodeContents_eq] at unheard
    split at unheard <;> cases unheard

theorem IsInterface.reaches_iff {target : String} {u : Url} (target_is : IsInterface target u) (c : Call) :
    ∃ address : Url, address.scheme = u.scheme ∧ address.host = u.host ∧ address.port = u.port ∧
      (Reaches target c ↔ address.text.utf8ByteSize ≤ Url.lengthLimit) := by
  obtain ⟨v, read, scheme, -, -, host, port⟩ := exists_parse_route target_is c
  have hosted : v.hasHost = true := by rw [Url.hasHost, host]; exact target_is.hosted
  obtain ⟨scheme', host', port'⟩ := v.takeLogin_place
  have placed : (addressed c v).2.scheme = u.scheme ∧ (addressed c v).2.host = u.host ∧
      (addressed c v).2.port = u.port := by
    unfold addressed
    dsimp only
    split
    · exact ⟨scheme'.trans scheme, host'.trans host, port'.trans port⟩
    · exact ⟨scheme'.trans scheme, host'.trans host, port'.trans port⟩
  refine ⟨(addressed c v).2, placed.1, placed.2.1, placed.2.2, ?_⟩
  simp [Reaches, read, hosted, target_is.isSendable_eq placed.1 placed.2.1]

section Answers

variable {σ : Type} {network : Network (StateM σ)} {target : String} {c : Call} {s : σ}

theorem answer_of_error {fault : RequestFault} (failed : request target c = .error fault) :
    answer network target c s = (.error fault.cloudError, s) := by
  unfold answer
  rw [failed]
  rfl

theorem answer_of_ok {r : Request} (asked : request target c = .ok r) :
    answer network target c s = (interpret c r.url (network r s).1, (network r s).2) := by
  unfold answer
  rw [asked]
  rfl

end Answers

/-- When a call is told that nobody has answered. A file that cannot be opened is trouble on this side,
and the caller is not advised to try again. A request that is made goes into the network once, and is told
to be unanswered just when no complete answer comes back. But without an address to send to, nothing goes
into the network, and the call is told to be unanswered all the same, and the caller advised to try again.
Below a target that is an interface of the web this happens only for addresses that are too long. -/
theorem unheard_exact {σ : Type} (network : Network (StateM σ)) (target : String) (c : Call) (s : σ) :
    (∀ fault, c.payload = .error fault → ∃ path cause,
      answer network target c s = (.error (.internal (.unopened path cause)), s) ∧
      (ActionError.cloud (.internal (.unopened path cause))).failure =
        ⟨.cpiError, "failed to open " ++ path ++ ": " ++ cause, false⟩) ∧
    (∀ payload, c.payload = .ok payload → Reaches target c → ∃ r, request target c = .ok r ∧
      (answer network target c s).2 = (network r s).2 ∧
      ((∃ cause, (answer network target c s).1 = .error (.transport none cause)) ↔
        ∃ fault, (network r s).1 = .error fault)) ∧
    (∀ payload, c.payload = .ok payload → ¬ Reaches target c → ∃ cause,
      answer network target c s = (.error (.transport none cause), s) ∧
      (ActionError.cloud (.transport none cause)).failure =
        ⟨.cloudError, "esxcloud: HTTP error: " ++ cause, true⟩) ∧
    ∀ u, IsInterface target u → ∃ address : Url, address.scheme = u.scheme ∧ address.host = u.host ∧
      address.port = u.port ∧ (Reaches target c ↔ address.text.utf8ByteSize ≤ Url.lengthLimit) := by
  refine ⟨?unopened, ?sent, ?lost, fun u target_is => target_is.reaches_iff c⟩
  case unopened =>
    intro fault failed
    obtain ⟨path, cause, rfl⟩ := unopened_of_payload failed
    exact ⟨path, cause.message, answer_of_error (request_of_unopened failed), rfl⟩
  case sent =>
    intro payload carried reaches
    obtain ⟨login, address, asked⟩ := request_of_reaches carried reaches
    exact ⟨_, asked, by rw [answer_of_ok asked], by rw [answer_of_ok asked]; exact exists_unheard_iff⟩
  case lost =>
    intro payload carried lost
    obtain ⟨fault, cause, failed, told⟩ := request_of_not_reaches carried lost
    refine ⟨cause, ?_, rfl⟩
    rw [answer_of_error failed, told]

theorem unheard_exact_unopened :
    let upload : Call := .submit (.createImage ⟨"image", .error .notFound⟩ "image")
    (∃ fault, upload.payload = .error fault) ∧ ∃ path cause,
      answer (replying (.ok ⟨200, []⟩)) "http://esx.test:9000" upload [] =
        (.error (.internal (.unopened path cause)), []) ∧
      (ActionError.cloud (.internal (.unopened path cause))).failure =
        ⟨.cpiError, "failed to open " ++ path ++ ": " ++ cause, false⟩ :=
  ⟨⟨_, rfl⟩, (unheard_exact (replying (.ok ⟨200, []⟩)) "http://esx.test:9000"
    (.submit (.createImage ⟨"image", .error .notFound⟩ "image")) []).1 _ rfl⟩

def configured (target : String) : String :=
  "\x7b\"esxcloud\":\x7b\"target\":\"" ++ target ++ "\",\"project\":\"p1\"\x7d," ++
    "\"agent\":\x7b\"mbus\":\"m\"\x7d\x7d"

/-- A target without a scheme is configured without complaint. No call gets beyond this side then, and
yet the caller is advised to try again. -/
theorem unheard_unsent :
    (∃ config, Config.parse (configured "esx-host") = .accepted config ∧
      config.cloud.target = "esx-host") ∧
    ¬ Reaches "esx-host" (.getVm ⟨"vm-1"⟩) ∧
    answer (replying (.ok ⟨200, []⟩)) "esx-host" (.getVm ⟨"vm-1"⟩) [] =
      (.error (.transport none "builder error"), []) ∧
    (ActionError.cloud (.transport none "builder error")).failure.retry = true := by
  have accepted : (match Config.parse (configured "esx-host") with
      | .accepted config => config.cloud.target == "esx-host"
      | _ => false) = true := by
    decide +kernel
  have nowhere : Url.parse (base "esx-host" ++ (Call.getVm ⟨"vm-1"⟩).route.path) = none := by
    decide +kernel
  have lost : ¬ Reaches "esx-host" (.getVm ⟨"vm-1"⟩) := by
    rintro ⟨url, read, -⟩
    rw [nowhere] at read
    cases read
  refine ⟨?_, lost, ?_, rfl⟩
  · split at accepted
    · next config parsed => exact ⟨config, parsed, by simpa using accepted⟩
    · cases accepted
  · have unbuilt : request "esx-host" (.getVm ⟨"vm-1"⟩) = .error .noUrl := by
      simp [request, Call.payload, nowhere]
      rfl
    exact answer_of_error unbuilt

end CloudProvider.Http
