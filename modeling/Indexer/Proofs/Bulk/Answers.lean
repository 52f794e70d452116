import Indexer.Bulk.FailureClass
import Indexer.Bulk.Http

/-! Answers of the endpoint over HTTP. Whatever the client meets with, a request ends in
a response body or in one of four faults. Two of them pass, and a request is sent again as
a whole after the same statuses after which a single item is: the list that the endpoint
goes by and the one that items are judged by say the same. -/
namespace Indexer

namespace Fault

/-- The faults that a request over HTTP ends in. -/
def endsRequest : Fault → Bool
  | connection _ | timeout _ | credentials _ _ | protocol _ _ => true
  | _ => false

/-- The faults after which a whole request is worth sending again. -/
def isPassing : Fault → Bool
  | connection _ | timeout _ => true
  | _ => false

end Fault

namespace FailureClass

/-- Without the type of an error its status decides. -/
theorem of_status {q : Quantity} {n : Int} (h : q.toInt? = some n) :
    of (some q) none = if n ∈ transientStatuses then .transient else .permanent := by
  have hUntyped : ∀ marks ∈ [connectivityMarks, transientMarks],
      mentionsAny marks (normalize none).toList = false := by decide
  have hConnectivity := hUntyped connectivityMarks (by simp)
  have hTransient := hUntyped transientMarks (by simp)
  simp [of, hConnectivity, hTransient, Quantity.isOneOf_of_toInt? h]

end FailureClass

namespace HttpEndpoint

variable {e : HttpEndpoint} {r : HttpResponse} {n : Int}

/-- The two lists of statuses agree: the endpoint words one of them as a timeout. -/
theorem mem_transientStatuses_iff :
    n ∈ FailureClass.transientStatuses ↔ n = 408 ∨ n ∈ unavailableStatuses := by
  simp [FailureClass.transientStatuses, unavailableStatuses]

/-- A fault of the client means one fault of the request, and all of them pass but a body that
cannot be decoded. -/
theorem ofFault_http (e : HttpEndpoint) (kind : HttpKind) (text : String) :
    (e.ofFault (.http kind text)).endsRequest = true ∧
      ((e.ofFault (.http kind text)).isPassing = true ↔ kind ≠ .contentDecoding) := by
  cases kind <;> simp [ofFault, HttpKind.isTimeout, HttpKind.isConnection, Fault.endsRequest,
    Fault.isPassing]

/-- A response is taken or ends in a fault. It is taken if its status is below 300 and its body an
object; whether its fault passes is for the status to say. -/
theorem ofResponse_cases (e : HttpEndpoint) (hStatus : r.status.toInt? = some n) :
    (∃ fields, n < 300 ∧ r.body = .ok (.obj fields) ∧ e.ofResponse r = .ok (.obj fields)) ∨
    ∃ f, e.ofResponse r = .error f ∧ f.endsRequest = true ∧
      (n < 300 → ∀ fields, r.body ≠ .ok (.obj fields)) ∧
      (f.isPassing = true ↔ n = 408 ∨ n ∈ unavailableStatuses) := by
  unfold ofResponse
  simp only [Quantity.isOneOf_of_toInt? hStatus, Quantity.isExactly_of_toInt? hStatus,
    Quantity.isAtLeast_of_toInt? hStatus, decide_eq_true_eq, unavailableStatuses, List.mem_cons,
    List.not_mem_nil, or_false]
  split
  · next hRefused => exact .inr ⟨_, rfl, rfl, by omega, by simp [Fault.isPassing]; omega⟩
  · split
    · next hLate => exact .inr ⟨_, rfl, rfl, by omega, by simp [Fault.isPassing, hLate]⟩
    · next hInTime =>
        split
        · next hBusy => exact .inr ⟨_, rfl, rfl, by omega, by simp [Fault.isPassing, hBusy]⟩
        · next hFree =>
            have hNever : ¬(n = 408 ∨ n = 429 ∨ n = 502 ∨ n = 503 ∨ n = 504) :=
              not_or.mpr ⟨hInTime, hFree⟩
            split
            · next hOther => exact .inr ⟨_, rfl, rfl, by omega, by simp [Fault.isPassing, hNever]⟩
            · next hBelow =>
                cases hBody : r.body with
                | error reason => exact .inr ⟨_, rfl, rfl, nofun, by simp [Fault.isPassing, hNever]⟩
                | ok body =>
                    cases body with
                    | obj fields => exact .inl ⟨fields, by omega, rfl, rfl⟩
                    | null | bool b | number x | str s | arr items =>
                        exact .inr ⟨_, rfl, rfl, nofun, by simp [Fault.isPassing, hNever]⟩

theorem ofResponse_eq_ok_iff (hStatus : r.status.toInt? = some n) {body : Json} :
    e.ofResponse r = .ok body ↔ n < 300 ∧ r.body = .ok body ∧ ∃ fields, body = .obj fields := by
  rcases ofResponse_cases e hStatus with
    ⟨fields, hBelow, hBody, hTaken⟩ | ⟨f, hFault, _, hNoObject, _⟩
  · rw [hTaken, hBody]
    simp only [Except.ok.injEq]
    exact ⟨fun hSame => ⟨hBelow, hSame, fields, hSame.symm⟩, fun h => h.2.1⟩
  · rw [hFault]
    refine ⟨nofun, fun ⟨hBelow, hBody, fields, hObject⟩ => ?_⟩
    exact absurd (hObject ▸ hBody) (hNoObject hBelow fields)

theorem endsRequest_of_ofResponse (hStatus : r.status.toInt? = some n) {f : Fault}
    (h : e.ofResponse r = .error f) : f.endsRequest = true := by
  rcases ofResponse_cases e hStatus with ⟨_, _, _, hTaken⟩ | ⟨g, hFault, hEnds, _⟩
  · cases hTaken.symm.trans h
  · cases hFault.symm.trans h
    exact hEnds

/-- A response lets the whole request be sent again exactly if its status makes the failure of a
single item one that passes. -/
theorem isPassing_ofResponse_iff (hStatus : r.status.toInt? = some n) :
    (∃ f, e.ofResponse r = .error f ∧ f.isPassing = true) ↔
      FailureClass.of (some r.status) none = .transient := by
  have hClass : FailureClass.of (some r.status) none = .transient ↔
      n = 408 ∨ n ∈ unavailableStatuses := by
    rw [FailureClass.of_status hStatus, ← mem_transientStatuses_iff]
    split <;> simp_all
  rw [hClass]
  rcases ofResponse_cases e hStatus with ⟨_, hBelow, _, hTaken⟩ | ⟨f, hFault, _, _, hPasses⟩
  · have hNever : ¬(n = 408 ∨ n ∈ unavailableStatuses) := by
      simp only [unavailableStatuses, List.mem_cons, List.not_mem_nil, or_false]
      omega
    refine ⟨fun ⟨g, hg, _⟩ => ?_, fun hBusy => absurd hBusy hNever⟩
    cases hTaken.symm.trans hg
  · rw [← hPasses, hFault]
    exact ⟨fun ⟨_, hg, hPassing⟩ => Except.error.inj hg ▸ hPassing, fun h => ⟨f, rfl, h⟩⟩

/-- Whatever the client meets with, a request over HTTP ends in a body or in one of four faults. A
body is handed on exactly if the status is below 300 and it is an object. Every fault of the client
passes but a body that cannot be decoded; of the responses those pass whose status makes the failure
of a single item a passing one. -/
theorem answers_come_to_one_end (e : HttpEndpoint) :
    (∀ kind text, ∃ f, e.interpret (.error (.http kind text)) = .error f ∧
      f.endsRequest = true ∧ (f.isPassing = true ↔ kind ≠ .contentDecoding)) ∧
    ∀ (r : HttpResponse) (n : Int), r.status.toInt? = some n →
      (∀ body, e.interpret (.ok r) = .ok body ↔
        n < 300 ∧ r.body = .ok body ∧ ∃ fields, body = .obj fields) ∧
      (∀ f, e.interpret (.ok r) = .error f → f.endsRequest = true) ∧
      ((∃ f, e.interpret (.ok r) = .error f ∧ f.isPassing = true) ↔
        FailureClass.of (some r.status) none = .transient) :=
  ⟨fun kind text => ⟨_, rfl, ofFault_http e kind text⟩, fun _ _ hStatus =>
    ⟨fun _ => ofResponse_eq_ok_iff hStatus, fun _ => endsRequest_of_ofResponse hStatus,
      isPassing_ofResponse_iff hStatus⟩⟩

/-- A node that is busy and says so in a page that is no JSON. -/
theorem busy_node_comes_to_one_end :
    let e := ofUrl "http://127.0.0.1:9200/" (.whole 30)
    let r : HttpResponse := ⟨.whole 503, "<html>", .error "Expecting value"⟩
    r.status.toInt? = some 503 ∧ (∀ body, e.interpret (.ok r) ≠ .ok body) ∧
      (∃ f, e.interpret (.ok r) = .error f ∧ f.isPassing = true) ∧
      FailureClass.of (some r.status) none = .transient := by
  intro e r
  have hTransient : FailureClass.of (some r.status) none = .transient := by decide +kernel
  obtain ⟨hBody, _, hPassing⟩ := (answers_come_to_one_end e).2 r 503 rfl
  refine ⟨rfl, fun body hTaken => ?_, hPassing.mpr hTransient, hTransient⟩
  exact absurd ((hBody body).mp hTaken).1 (by decide)

end HttpEndpoint
end Indexer
