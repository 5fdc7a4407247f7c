import CloudProvider.Http.Remote

/-! What a reply to a request means to the call. -/

namespace CloudProvider.Http

def replying (reply : Except NetworkFault Answer) : Network (StateM (List Request)) :=
  fun r sent => (reply, sent ++ [r])

theorem answer_replying (reply : Except NetworkFault Answer) (target : String) (c : Call)
    (sent : List Request) :
    answer (replying reply) target c sent =
      match request target c with
      | .error fault => (.error fault.cloudError, sent)
      | .ok r => (interpret c r.url reply, sent ++ [r]) := by
  unfold answer
  cases request target c <;> rfl

theorem decodeContents_eq {α : Type} (codec : Json.Codec α) (body : Bytes) :
    decodeContents codec body =
      match codec.decode body with
      | .ok a => .ok a
      | .error fault => .error (.internal (.undecodable fault)) := by
  unfold decodeContents
  cases codec.decode body <;> rfl

section Interpret

variable {c : Call} {url : Url} {a : Answer}

theorem interpret_of_success (success : a.isSuccess = true) :
    interpret c url (.ok a) = decodeContents c.codec a.body := by
  rw [interpret, Answer.contents, if_pos success]
  rfl

theorem interpret_of_refusal {refusal : Refusal} (failure : a.isSuccess = false)
    (told : Refusal.codec.decode a.body = .ok refusal) :
    interpret c url (.ok a) = .error (.refused refusal a.status) := by
  rw [interpret, Answer.contents, if_neg (by simp [failure]), told]
  rfl

theorem interpret_of_noise {fault : Json.Fault} (failure : a.isSuccess = false)
    (untold : Refusal.codec.decode a.body = .error fault) :
    interpret c url (.ok a) = .error (.transport (some a.status) (Text.Utf8.lossy a.body)) := by
  rw [interpret, Answer.contents, if_neg (by simp [failure]), untold]
  rfl

end Interpret
end CloudProvider.Http
