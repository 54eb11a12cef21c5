import LocalNet.Api.Query
import LocalNet.Proofs.Json.Typed

/-!
# What a body says of the health of a node

A node is healthy only if the whole body of its response is one document that says so and reports no
error. Members that are not asked for and the order of members make no difference; anything that is
asked for and malformed spoils the document, beside an error as well.
-/

namespace LocalNet.Api

open Json

/-! ## Documents that responses are made of -/

/-- What an object or an array says of the health of a node. -/
inductive TellsHealth : Doc → Health → Prop where
  | object {members : List (Bytes × Doc)} {entries : List (String × Doc)} {given : Doc}
      {healthy : Bool} (named : Named members entries) (once : Once ["healthy"] entries)
      (found : entries.lookup "healthy" = some given) (spelled : given.IsBoolean healthy) :
      TellsHealth (.object members) ⟨healthy⟩
  | array {given : Doc} {healthy : Bool} (spelled : given.IsBoolean healthy) :
      TellsHealth (.array [given]) ⟨healthy⟩

inductive TellsFault : Doc → Fault → Prop where
  | object {members : List (Bytes × Doc)} {entries : List (String × Doc)} {first second : Doc}
      {code : Int} {message : String} (named : Named members entries)
      (once : Once ["code", "message"] entries) (isCode : entries.lookup "code" = some first)
      (spelled : first.IsSigned code) (isMessage : entries.lookup "message" = some second)
      (worded : second.IsText message) : TellsFault (.object members) ⟨code, message⟩
  | array {first second : Doc} {code : Int} {message : String} (spelled : first.IsSigned code)
      (worded : second.IsText message) : TellsFault (.array [first, second]) ⟨code, message⟩

/-- A response has a result or an error or both; each is well formed where it is given. -/
inductive Tells : Doc → Response → Prop where
  | object {members : List (Bytes × Doc)} {entries : List (String × Doc)} {result : Option Health}
      {fault : Option Fault} (named : Named members entries) (once : Once ["result", "error"] entries)
      (isResult : OrNull TellsHealth (entries.lookup "result") result)
      (isFault : OrNull TellsFault (entries.lookup "error") fault) :
      Tells (.object members) ⟨result, fault⟩
  | array {first second : Doc} {result : Option Health} {fault : Option Fault}
      (isResult : OrNull TellsHealth (some first) result)
      (isFault : OrNull TellsFault (some second) fault) :
      Tells (.array [first, second]) ⟨result, fault⟩

/-! ## What the records ask for -/

theorem health_means : Health.record.decoder.Means 1 TellsHealth := by
  have boolean := Decoder.boolean_means
  have stores : ∀ field ∈ Health.record.fields,
      field.store.IsUniform ∧ field.store.Recognizes := by
    simp only [Health.record, List.forall_mem_cons]
    exact ⟨Record.stores_of_means boolean _, List.forall_mem_nil _⟩
  refine Record.open_means rfl (List.pairwise_singleton _ _) (by decide) stores ?_ ?_ ?_
  · rintro doc health (_ | _)
    · exact .inl ⟨_, rfl⟩
    · exact .inr ⟨_, rfl⟩
  · intro depth members health deep formed
    constructor
    · rintro ⟨entries, named, once, gathered⟩
      have each := named.each Doc.WellFormed formed
      obtain ⟨given, healthy, found, spelled, ⟨⟩⟩ :=
        (Record.gather_required_iff boolean deep each).mp gathered
      exact .object named once found spelled
    · intro tells
      obtain @⟨_, entries, given, healthy, named, once, found, spelled⟩ | _ := tells
      have each := named.each Doc.WellFormed formed
      exact ⟨entries, named, once, (Record.gather_required_iff boolean deep each).mpr
        ⟨given, healthy, found, spelled, rfl⟩⟩
  · intro depth elements health deep formed
    constructor
    · intro filled
      obtain ⟨given, rest, healthy, rfl, spelled, made⟩ :=
        (Record.fill_placed_iff boolean deep formed).mp filled
      obtain ⟨rfl, ⟨⟩⟩ := Record.fill_nil_iff.mp made
      exact .array spelled
    · intro tells
      obtain _ | @⟨given, healthy, spelled⟩ := tells
      exact (Record.fill_placed_iff boolean deep formed).mpr
        ⟨given, [], healthy, rfl, spelled, Record.fill_nil_iff.mpr ⟨rfl, rfl⟩⟩

theorem fault_means : Fault.record.decoder.Means 1 TellsFault := by
  have signed := Decoder.signed_means
  have text := Decoder.text_means "a string"
  have stores : ∀ field ∈ Fault.record.fields,
      field.store.IsUniform ∧ field.store.Recognizes := by
    simp only [Fault.record, List.forall_mem_cons]
    exact ⟨Record.stores_of_means signed _, Record.stores_of_means text _, List.forall_mem_nil _⟩
  have apart : Fault.record.fields.Pairwise Field.Apart := by
    simp only [Fault.record, List.pairwise_cons, List.forall_mem_cons]
    exact ⟨⟨Record.mapped_apart fun _ _ _ => rfl, List.forall_mem_nil _⟩, List.forall_mem_nil _, .nil⟩
  refine Record.open_means rfl apart (by decide) stores ?_ ?_ ?_
  · rintro doc fault (_ | _)
    · exact .inl ⟨_, rfl⟩
    · exact .inr ⟨_, rfl⟩
  · intro depth members fault deep formed
    constructor
    · rintro ⟨entries, named, once, gathered⟩
      have each := named.each Doc.WellFormed formed
      obtain ⟨first, code, isCode, spelled, others⟩ :=
        (Record.gather_required_iff signed deep each).mp gathered
      obtain ⟨second, message, isMessage, worded, ⟨⟩⟩ :=
        (Record.gather_required_iff text deep each).mp others
      exact .object named once isCode spelled isMessage worded
    · intro tells
      obtain @⟨_, entries, first, second, code, message, named, once, isCode, spelled, isMessage,
        worded⟩ | _ := tells
      have each := named.each Doc.WellFormed formed
      exact ⟨entries, named, once, (Record.gather_required_iff signed deep each).mpr
        ⟨first, code, isCode, spelled, (Record.gather_required_iff text deep each).mpr
          ⟨second, message, isMessage, worded, rfl⟩⟩⟩
  · intro depth elements fault deep formed
    constructor
    · intro filled
      obtain ⟨first, rest, code, rfl, spelled, others⟩ :=
        (Record.fill_placed_iff signed deep formed).mp filled
      obtain ⟨second, rest, message, rfl, worded, made⟩ :=
        (Record.fill_placed_iff text deep (List.forall_mem_cons.mp formed).2).mp others
      obtain ⟨rfl, ⟨⟩⟩ := Record.fill_nil_iff.mp made
      exact .array spelled worded
    · intro tells
      obtain _ | @⟨first, second, code, message, spelled, worded⟩ := tells
      exact (Record.fill_placed_iff signed deep formed).mpr ⟨first, [second], code, rfl, spelled,
        (Record.fill_placed_iff text deep (List.forall_mem_cons.mp formed).2).mpr
          ⟨second, [], message, rfl, worded, Record.fill_nil_iff.mpr ⟨rfl, rfl⟩⟩⟩

theorem response_means : Response.record.decoder.Means 2 Tells := by
  have health := Decoder.optional_means health_means (by rintro _ ⟨⟩)
  have fault := Decoder.optional_means fault_means (by rintro _ ⟨⟩)
  have stores : ∀ field ∈ Response.record.fields,
      field.store.IsUniform ∧ field.store.Recognizes := by
    simp only [Response.record, List.forall_mem_cons]
    exact ⟨Record.stores_of_means health _, Record.stores_of_means fault _, List.forall_mem_nil _⟩
  have apart : Response.record.fields.Pairwise Field.Apart := by
    simp only [Response.record, List.pairwise_cons, List.forall_mem_cons]
    exact ⟨⟨Record.mapped_apart fun _ _ _ => rfl, List.forall_mem_nil _⟩, List.forall_mem_nil _, .nil⟩
  refine Record.open_means rfl apart (by decide) stores ?_ ?_ ?_
  · rintro doc response (_ | _)
    · exact .inl ⟨_, rfl⟩
    · exact .inr ⟨_, rfl⟩
  · intro depth members response deep formed
    constructor
    · rintro ⟨entries, named, once, gathered⟩
      have each := named.each Doc.WellFormed formed
      obtain ⟨result, isResult, others⟩ :=
        (Record.gather_nullable_iff health deep each rfl).mp gathered
      obtain ⟨error, isFault, made⟩ := (Record.gather_nullable_iff fault deep each rfl).mp others
      cases made
      exact .object named once isResult isFault
    · intro tells
      obtain @⟨_, entries, result, error, named, once, isResult, isFault⟩ | _ := tells
      have each := named.each Doc.WellFormed formed
      exact ⟨entries, named, once, (Record.gather_nullable_iff health deep each rfl).mpr
        ⟨result, isResult, (Record.gather_nullable_iff fault deep each rfl).mpr
          ⟨error, isFault, rfl⟩⟩⟩
  · intro depth elements response deep formed
    constructor
    · intro filled
      obtain ⟨first, rest, result, rfl, isResult, others⟩ :=
        (Record.fill_placed_iff health deep formed).mp filled
      obtain ⟨second, rest, error, rfl, isFault, made⟩ :=
        (Record.fill_placed_iff fault deep (List.forall_mem_cons.mp formed).2).mp others
      obtain ⟨rfl, ⟨⟩⟩ := Record.fill_nil_iff.mp made
      exact .array isResult isFault
    · intro tells
      obtain _ | @⟨first, second, result, error, isResult, isFault⟩ := tells
      exact (Record.fill_placed_iff health deep formed).mpr ⟨first, [second], result, rfl, isResult,
        (Record.fill_placed_iff fault deep (List.forall_mem_cons.mp formed).2).mpr
          ⟨second, [], error, rfl, isFault, Record.fill_nil_iff.mpr ⟨rfl, rfl⟩⟩⟩

/-! ## Bodies -/

/-- The whole body is one document, and this is the response that it tells. -/
def Carries (body : Bytes) (response : Response) : Prop :=
  ∃ doc : Doc, doc.WellFormed ∧ doc.Spells body ∧ Tells doc response

theorem carries_iff {body : Bytes} {response : Response} :
    Carries body response ↔ Response.record.decoder.fromText body = .ok response :=
  (response_means.accepted (by decide)).symm

theorem Carries.judged {body : Bytes} {response : Response} (carries : Carries body response) :
    judge body = response.verdict := by
  rw [judge, carries_iff.mp carries]

theorem judge_cases (body : Bytes) :
    (∃ response, Carries body response ∧ judge body = response.verdict) ∨
      (∀ response, ¬Carries body response) ∧ judge body = .error malformed := by
  cases decoded : Response.record.decoder.fromText body with
  | ok response => exact .inl ⟨response, carries_iff.mpr decoded, (carries_iff.mpr decoded).judged⟩
  | error reason =>
      refine .inr ⟨fun response carries => ?_, by rw [judge, decoded]⟩
      rw [carries_iff, decoded] at carries
      cases carries

theorem judge_healthy_iff {body : Bytes} {healthy : Bool} :
    judge body = .ok healthy ↔ Carries body ⟨some ⟨healthy⟩, none⟩ := by
  refine ⟨fun judged => ?_, Carries.judged⟩
  obtain ⟨⟨result, fault⟩, carries, verdict⟩ | ⟨-, spoiled⟩ := judge_cases body
  · rw [judged] at verdict
    rcases fault with _ | fault
    · rcases result with _ | health
      · cases verdict
      · cases verdict
        exact carries
    · cases verdict
  · rw [judged] at spoiled
    cases spoiled

theorem judge_fault_iff {body : Bytes} {code : Int} {message : String} :
    judge body = .error (.rpc code message) ↔
      ∃ result, Carries body ⟨result, some ⟨code, message⟩⟩ := by
  refine ⟨fun judged => ?_, ?_⟩
  swap
  · rintro ⟨_, carries⟩
    exact carries.judged
  obtain ⟨⟨result, fault⟩, carries, verdict⟩ | ⟨-, spoiled⟩ := judge_cases body
  · rw [judged] at verdict
    rcases fault with _ | fault
    · rcases result with _ | health <;> cases verdict
    · cases verdict
      exact ⟨result, carries⟩
  · rw [judged] at spoiled
    cases spoiled

theorem judge_malformed_iff {body : Bytes} :
    (∃ reason, judge body = .error (.decode reason)) ↔
      (∀ healthy, ¬Carries body ⟨some ⟨healthy⟩, none⟩) ∧
        ∀ result fault, ¬Carries body ⟨result, some fault⟩ := by
  constructor
  · rintro ⟨reason, judged⟩
    refine ⟨fun healthy carries => ?_, fun result fault carries => ?_⟩ <;>
    · have verdict := carries.judged
      rw [judged] at verdict
      cases verdict
  · rintro ⟨unhealthy, faultless⟩
    obtain ⟨⟨result, fault⟩, carries, verdict⟩ | ⟨-, spoiled⟩ := judge_cases body
    · rcases fault with _ | fault
      · rcases result with _ | health
        · exact ⟨_, verdict⟩
        · exact absurd carries (unhealthy health.healthy)
      · exact absurd carries (faultless result fault)
    · exact ⟨_, spoiled⟩

/-- Whatever the status of a response is, its body alone decides what a query comes to. -/
theorem answer_decided_by_body {server : Server} {host : String} {port : Nat}
    {response : Http.Response} {body : Bytes}
    (answered : (query server host port).journey.exchange = .answered response)
    (whole : response.body = some body) :
    (query server host port).answer = judge body ∧
    (∀ healthy, (query server host port).answer = .ok healthy ↔
      Carries body ⟨some ⟨healthy⟩, none⟩) ∧
    (∀ code message, (query server host port).answer = .error (.rpc code message) ↔
      ∃ result, Carries body ⟨result, some ⟨code, message⟩⟩) ∧
    ((∃ reason, (query server host port).answer = .error (.decode reason)) ↔
      (∀ healthy, ¬Carries body ⟨some ⟨healthy⟩, none⟩) ∧
        ∀ result fault, ¬Carries body ⟨result, some fault⟩) := by
  have judged : (query server host port).answer = judge body := by
    unfold query at answered ⊢
    split at answered
    · cases answered
    · dsimp only at answered ⊢
      rw [answered, outcome, whole]
  rw [judged]
  exact ⟨rfl, fun healthy => judge_healthy_iff, fun code message => judge_fault_iff,
    judge_malformed_iff⟩

/-- A response of any status counts, and an error in it wins over its result. -/
theorem fault_beside_health :
    let body := Bytes.ofText "\x7b\"result\":\x7b\"healthy\":true\x7d,\"error\":[-7,\"busy\"]\x7d"
    let server : Server := { host := "127.0.0.1", port := 9650, behaviours := [.responds 500 body] }
    (query server "127.0.0.1" 9650).journey.exchange = .answered ⟨500, none, some body⟩ ∧
      (query server "127.0.0.1" 9650).answer = .error (.rpc (-7) "busy") ∧
      ∃ result, Carries body ⟨result, some ⟨-7, "busy"⟩⟩ := by
  intro body server
  have answered : (query server "127.0.0.1" 9650).journey.exchange =
      .answered ⟨500, none, some body⟩ := by decide +kernel
  obtain ⟨judged, -, faults, -⟩ := answer_decided_by_body answered rfl
  have verdict : judge body = .error (.rpc (-7) "busy") := by decide +kernel
  have answer := judged.trans verdict
  exact ⟨answered, answer, (faults (-7) "busy").mp answer⟩

end LocalNet.Api
