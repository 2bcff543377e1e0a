import PdaProxy.Assertions

/-! What the proxy sends upstream. `inbound_handler` keeps its client's blobs and their
encryptions side by side from call to call, so that a forwarded `blob.Submit` holds proofs
that `get_verifiable_encryption` returned for just the blobs that came in, in their order.
That is so for a body that is one request object; the elements of a batch are not looked at. -/
namespace PdaProxy
open PdaProxy.Semantics.Serialization PdaProxy.Semantics.Transition

variable {Proof Encoded Body : Type}

def requestObjects : Json → List Json
  | .array items => items
  | single => [single]

section
variable (deps : Dependencies Proof Encoded Body)

def submittedBlobs (object : Json) : Option (List Blob) :=
  match methodOf object with
  | some "blob.Submit" =>
    match object.get "params" with
    | some (.array (blobsValue :: _)) => (deps.blobsFromValue blobsValue).toOption
    | _ => none
  | _ => none

/-- The entries of the blob list of a `blob.Submit` call, or what is there in place of a list. -/
def submittedEntries (object : Json) : List Json :=
  match methodOf object with
  | some "blob.Submit" =>
    match object.get "params" with
    | some (.array (.array entries :: _)) => entries
    | some (.array (entry :: _)) => [entry]
    | _ => []
  | _ => []

/-- The entry is read as a blob, or has at least the member that holds a blob's data. -/
def CarriesData (entry : Json) : Prop :=
  (deps.blobFromValue entry).toOption.isSome = true ∨ (entry.get "data").isSome = true

instance : DecidablePred (CarriesData deps) := fun entry =>
  inferInstanceAs (Decidable ((deps.blobFromValue entry).toOption.isSome = true ∨ (entry.get "data").isSome = true))

def IncomingRequest.json (req : IncomingRequest Body) : Except String Json :=
  match req.body with
  | .error e => .error e
  | .ok bodyBytes => deps.fromSlice bodyBytes

def Returned (answered : List (Answered Proof)) (data : Bytes) (proof : Proof) : Prop :=
  ∃ config, ⟨config,deps.jobOf data,.ok (some proof)⟩ ∈ answered

def Encrypted (answered : List (Answered Proof)) (blob encrypted : Blob) : Prop :=
  ∃ proof, Returned deps answered blob.data proof ∧
    deps.blobNew blob.nmtNamespace (deps.proofCodec.serialize proof) = .ok encrypted

/-- The client's blobs before the current one are encrypted, and the others are to come. -/
def Intercepted (answered : List (Answered Proof)) (origin : IncomingRequest Body) (bodyJson : Json)
    (encryptedBlobs remaining : List Blob) : Prop :=
  ∃ done, origin.json deps = .ok bodyJson ∧ submittedBlobs deps bodyJson = some (done ++ remaining) ∧
    List.Forall₂ (Encrypted deps answered) done encryptedBlobs

/-- How a forwarded request comes from the one that came in. -/
inductive Forwarded (answered : List (Answered Proof)) (req : IncomingRequest Body) : Request Body → Prop
  | unchanged (bodyJson) (parsed : req.json deps = .ok bodyJson) (other : submittedBlobs deps bodyJson = none)
      (bare : submittedEntries bodyJson = []) : Forwarded answered req (forward deps req bodyJson)
  | encrypted (bodyJson blobs encryptedBlobs) (parsed : req.json deps = .ok bodyJson)
      (submitted : submittedBlobs deps bodyJson = some blobs)
      (replaced : List.Forall₂ (Encrypted deps answered) blobs encryptedBlobs) :
      Forwarded answered req (forward deps req (overwriteBlobs bodyJson (deps.blobsToValue encryptedBlobs)))

def Inbound.Sound (answered : List (Answered Proof)) (origin : IncomingRequest Body) : Inbound Body → Prop
  | .encrypt submission => submission.origin = origin ∧
      Intercepted deps answered origin submission.bodyJson submission.encryptedBlobs
        (submission.blob :: submission.rest)
  | .done result => ∀ forwarded, result = .ok (some forwarded) → Forwarded deps answered origin forwarded

end

variable {deps : Dependencies Proof Encoded Body} {answered : List (Answered Proof)}

theorem submittedBlobs_eq_some {object : Json} {blobs : List Blob} :
    submittedBlobs deps object = some blobs ↔ methodOf object = some "blob.Submit" ∧
      ∃ blobsValue others, object.get "params" = some (.array (blobsValue :: others)) ∧
        deps.blobsFromValue blobsValue = .ok blobs := by
  constructor
  · intro submitted
    unfold submittedBlobs at submitted
    split at submitted
    next method =>
      split at submitted
      next blobsValue others params =>
        cases decoded : deps.blobsFromValue blobsValue with
        | error e => simp [decoded,Except.toOption] at submitted
        | ok read =>
          simp only [decoded,Except.toOption,Option.some.injEq] at submitted
          exact ⟨method,blobsValue,others,params,submitted ▸ decoded⟩
      next => cases submitted
    next => cases submitted
  · intro call
    obtain ⟨method,blobsValue,others,params,decoded⟩ := call
    simp [submittedBlobs,method,params,decoded,Except.toOption]

theorem IncomingRequest.json_read {req : IncomingRequest Body} {bodyJson : Json} (parsed : req.json deps = .ok bodyJson) :
    ∃ bodyBytes, deps.fromSlice bodyBytes = .ok bodyJson := by
  unfold IncomingRequest.json at parsed
  split at parsed
  next => cases parsed
  next bodyBytes _ => exact ⟨bodyBytes,parsed⟩

theorem Encrypted.grows {later : List (Answered Proof)} (grown : answered ⊆ later) {blob encrypted : Blob}
    (replaced : Encrypted deps answered blob encrypted) : Encrypted deps later blob encrypted := by
  obtain ⟨proof,⟨config,returned⟩,made⟩ := replaced
  exact ⟨proof,⟨config,grown returned⟩,made⟩

theorem Intercepted.grows {later : List (Answered Proof)} (grown : answered ⊆ later)
    {origin : IncomingRequest Body} {bodyJson : Json} {encryptedBlobs remaining : List Blob}
    (intercepted : Intercepted deps answered origin bodyJson encryptedBlobs remaining) :
    Intercepted deps later origin bodyJson encryptedBlobs remaining := by
  obtain ⟨done,parsed,submitted,replaced⟩ := intercepted
  exact ⟨done,parsed,submitted,replaced.imp fun _ _ encrypted => encrypted.grows grown⟩

theorem Forwarded.grows {later : List (Answered Proof)} (grown : answered ⊆ later) {req : IncomingRequest Body}
    {forwarded : Request Body} (sound : Forwarded deps answered req forwarded) :
    Forwarded deps later req forwarded := by
  cases sound with
  | unchanged bodyJson parsed other bare => exact .unchanged bodyJson parsed other bare
  | encrypted bodyJson blobs encryptedBlobs parsed submitted replaced =>
    exact .encrypted bodyJson blobs encryptedBlobs parsed submitted
      (replaced.imp fun _ _ encrypted => encrypted.grows grown)

theorem submitBlobs_sound {origin : IncomingRequest Body} {bodyJson : Json} {encryptedBlobs remaining : List Blob}
    (intercepted : Intercepted deps answered origin bodyJson encryptedBlobs remaining) :
    (submitBlobs deps origin bodyJson encryptedBlobs remaining).Sound deps answered origin := by
  cases remaining with
  | nil =>
    intro forwarded same
    cases same
    obtain ⟨done,parsed,submitted,replaced⟩ := intercepted
    rw [List.append_nil] at submitted
    exact .encrypted bodyJson done encryptedBlobs parsed submitted replaced
  | cons blob rest => exact ⟨rfl,intercepted⟩

theorem interceptSubmit_sound {req : IncomingRequest Body} {bodyJson : Json} (parsed : req.json deps = .ok bodyJson)
    (method : methodOf bodyJson = some "blob.Submit") :
    (interceptSubmit deps req bodyJson).Sound deps answered req := by
  unfold interceptSubmit
  split
  next missing =>
    have other : submittedBlobs deps bodyJson = none := by simp [submittedBlobs,method,missing]
    have bare : submittedEntries bodyJson = [] := by simp [submittedEntries,method,missing]
    intro forwarded same
    cases same
    exact .unchanged bodyJson parsed other bare
  next paramsRaw present =>
    split
    next notArray => exact fun _ same => by cases same
    next empty =>
      have noParams : bodyJson.get "params" = some (.array []) := by
        cases paramsRaw with
        | array items =>
          cases empty
          exact present
        | _ => cases empty
      have other : submittedBlobs deps bodyJson = none := by simp [submittedBlobs,method,noParams]
      have bare : submittedEntries bodyJson = [] := by simp [submittedEntries,method,noParams]
      intro forwarded same
      cases same
      exact .unchanged bodyJson parsed other bare
    next blobsValue others found =>
      split
      next e malformed => exact fun _ same => by cases same
      next blobs decoded =>
        have params : bodyJson.get "params" = some (.array (blobsValue :: others)) := by
          cases paramsRaw with
          | array items => rw [present,Option.some.inj found]
          | _ => cases found
        have submitted : submittedBlobs deps bodyJson = some ([] ++ blobs) :=
          submittedBlobs_eq_some.mpr ⟨method,blobsValue,others,params,decoded⟩
        exact submitBlobs_sound ⟨[],parsed,submitted,.nil⟩

theorem inboundHandler_sound (req : IncomingRequest Body) : (inboundHandler deps req).Sound deps answered req := by
  unfold inboundHandler
  split
  next e failed => exact fun _ same => by cases same
  next bodyBytes collected =>
    split
    next e malformed => exact fun _ same => by cases same
    next bodyJson read =>
      have parsed : req.json deps = .ok bodyJson := by simp only [IncomingRequest.json,collected,read]
      split
      next method => exact interceptSubmit_sound parsed method
      next other =>
        have none : submittedBlobs deps bodyJson = none := by
          unfold submittedBlobs
          split
          next method => exact absurd method other
          next => rfl
        have bare : submittedEntries bodyJson = [] := by
          unfold submittedEntries
          split
          next method => exact absurd method other
          next => rfl
        intro forwarded same
        cases same
        exact .unchanged bodyJson parsed none bare

theorem resume_sound {submission : Submission Body} {config : Config} {result : CallResult Proof}
    (returned : ⟨config,submission.job deps,result⟩ ∈ answered)
    (intercepted : Intercepted deps answered submission.origin submission.bodyJson submission.encryptedBlobs
      (submission.blob :: submission.rest)) :
    (submission.resume deps result).Sound deps answered submission.origin := by
  have stepped := resume_step deps submission result
  generalize submission.resume deps result = inbound at stepped
  cases stepped with
  | encrypted proof encryptedBlob made =>
    obtain ⟨done,parsed,submitted,replaced⟩ := intercepted
    have encrypted : Encrypted deps answered submission.blob encryptedBlob := ⟨proof,⟨config,returned⟩,made⟩
    have extended : submittedBlobs deps submission.bodyJson = some ((done ++ [submission.blob]) ++ submission.rest) := by
      simpa using submitted
    have appended := List.rel_append replaced (.cons encrypted .nil)
    exact submitBlobs_sound ⟨done ++ [submission.blob],parsed,extended,appended⟩
  | failed | waits | refused => exact fun _ same => by cases same

/-- The bookkeeping of the handler, for clients whose requests all have some property. -/
def interceptions (deps : Dependencies Proof Encoded Body) (accepts : IncomingRequest Body → Prop) :
    Assertions Proof Encoded Body where
  shared _ _ _ := True
  request history submission _ := accepts submission.origin ∧
    Intercepted deps history.answered submission.origin submission.bodyJson submission.encryptedBlobs
      (submission.blob :: submission.rest)
  task _ _ _ := True
  message _ _ := True
  served history req result := accepts req ∧
    ∀ forwarded, result = .ok (some forwarded) → Forwarded deps history.answered req forwarded

def Receives (accepts : IncomingRequest Body → Prop) : Action Proof Body → Prop
  | .receive req => accepts req
  | .request _ _ | .recv | .task _ _ | .shutdown | .exit | .crash _ | .restart _ => True

theorem receives_any (action : Action Proof Body) : Receives (fun _ => True) action := by
  cases action <;> trivial

theorem interceptions_stable (accepts : IncomingRequest Body → Prop) :
    (interceptions deps accepts).Stable deps (fun _ action => Receives accepts action) (fun _ => True) where
  shared_grows _ _ _ _ := trivial
  request_grows grown _ holds := ⟨holds.1,holds.2.grows grown.answered⟩
  task_grows _ _ _ := trivial
  message_grows _ _ _ := trivial
  served_grows grown holds := ⟨holds.1,fun forwarded same => (holds.2 forwarded same).grows grown.answered⟩
  request_message _ := trivial
  task_message _ := trivial
  message_task _ := trivial
  receive {s req} _ _ accepted := by
    have sound : (inboundHandler deps req).Sound deps s.answered req := inboundHandler_sound req
    constructor
    · intro submission same
      rw [same] at sound
      obtain ⟨rfl,intercepted⟩ := sound
      exact ⟨accepted,intercepted⟩
    · intro result same
      rw [same] at sound
      exact ⟨accepted,sound⟩
  call _ _ _ _ holds _ := ⟨trivial,holds⟩
  answer {s _ _ thread _ result} _ _ _ _ holds _ := by
    obtain ⟨accepted,intercepted⟩ := holds
    have returned : (⟨s.config,thread.submission.job deps,result⟩ : Answered Proof) ∈
        s.answered ++ [⟨s.config,thread.submission.job deps,result⟩] := by simp
    have sound := resume_sound returned (intercepted.grows (List.subset_append_left s.answered _))
    refine ⟨trivial,?_,?_⟩
    · intro next same
      rw [same] at sound
      obtain ⟨origin,intercepted⟩ := sound
      exact ⟨origin ▸ accepted,origin ▸ intercepted⟩
    · intro response same
      rw [same] at sound
      exact ⟨accepted,sound⟩
  work _ _ _ _ _ _ := ⟨trivial,fun _ _ => trivial⟩
  restart _ _ _ _ _ := ⟨trivial,fun _ _ => trivial⟩

theorem forwarded_reaches {accepts : IncomingRequest Body → Prop}
    {guard : State Proof Encoded Body → Action Proof Body → Prop} {config : Config} {s : State Proof Encoded Body}
    (run : Reaches (State.step deps) guard (State.initial config) s)
    (implied : ∀ u action, guard u action → Receives accepts action) {req : IncomingRequest Body}
    {forwarded : Request Body} (served : (req,.ok (some forwarded)) ∈ s.served) :
    accepts req ∧ Forwarded deps s.answered req forwarded := by
  have holds := Assertions.holds_reaches (interceptions_stable accepts) (run.weaken implied) (fun _ _ => trivial)
    trivial
  obtain ⟨accepted,sound⟩ := holds.served _ served
  exact ⟨accepted,sound forwarded rfl⟩

theorem requestObjects_of_method {bodyJson : Json} {method : String} (found : methodOf bodyJson = some method) :
    requestObjects bodyJson = [bodyJson] := by
  cases bodyJson with
  | array items => cases found
  | _ => rfl

theorem overwriteBlobs_params {bodyJson : Json} {blobsValue encryptedValue : Json} {others : List Json}
    (params : bodyJson.get "params" = some (.array (blobsValue :: others))) :
    overwriteBlobs bodyJson encryptedValue = bodyJson.set "params" (.array (encryptedValue :: others)) := by
  simp only [overwriteBlobs,params]

theorem overwriteBlobs_method (bodyJson encryptedValue : Json) :
    methodOf (overwriteBlobs bodyJson encryptedValue) = methodOf bodyJson := by
  unfold overwriteBlobs
  split
  next => rw [methodOf,Json.get_set_ne _ _ _ _ (by decide),methodOf]
  next => rfl

theorem Encrypted.built {blobs encryptedBlobs : List Blob}
    (replaced : List.Forall₂ (Encrypted deps answered) blobs encryptedBlobs) :
    ∀ blob ∈ encryptedBlobs, ∃ ns data, deps.blobNew ns data = .ok blob := by
  induction replaced with
  | nil => exact fun blob member => by cases member
  | cons encrypted _ ih =>
    intro blob member
    rcases List.mem_cons.mp member with rfl | later
    · obtain ⟨proof,_,made⟩ := encrypted
      exact ⟨_,_,made⟩
    · exact ih blob later

theorem submittedBlobs_overwriteBlobs {bodyJson : Json} {blobs encryptedBlobs : List Blob}
    (submitted : submittedBlobs deps bodyJson = some blobs)
    (replaced : List.Forall₂ (Encrypted deps answered) blobs encryptedBlobs) :
    submittedBlobs deps (overwriteBlobs bodyJson (deps.blobsToValue encryptedBlobs)) = some encryptedBlobs := by
  obtain ⟨method,blobsValue,others,params,_⟩ := submittedBlobs_eq_some.mp submitted
  have sameMethod := (overwriteBlobs_method bodyJson (deps.blobsToValue encryptedBlobs)).trans method
  have replacedParams : (overwriteBlobs bodyJson (deps.blobsToValue encryptedBlobs)).get "params" =
      some (.array (deps.blobsToValue encryptedBlobs :: others)) := by
    rw [overwriteBlobs_params params,Json.get_set _ _ _ _ params]
  have decoded := blobsFromValue_blobsToValue encryptedBlobs (Encrypted.built replaced)
  exact submittedBlobs_eq_some.mpr ⟨sameMethod,_,others,replacedParams,decoded⟩

theorem submittedEntries_params {object : Json} {entries others : List Json} (method : methodOf object = some "blob.Submit")
    (params : object.get "params" = some (.array (.array entries :: others))) : submittedEntries object = entries := by
  simp only [submittedEntries,method,params]

/-- A list that is read as blobs has an entry for each of them. -/
theorem entries_of_blobs {entries : List Json} {blobs : List Blob}
    (decoded : entries.mapM deps.blobFromValue = .ok blobs) :
    List.Forall₂ (fun entry blob => deps.blobFromValue entry = .ok blob) entries blobs := by
  induction entries generalizing blobs with
  | nil =>
    cases decoded
    exact .nil
  | cons entry rest ih =>
    rw [List.mapM_cons] at decoded
    cases read : deps.blobFromValue entry with
    | error e => simp [read,bind,Except.bind] at decoded
    | ok blob =>
      cases later : rest.mapM deps.blobFromValue with
      | error e => simp [read,later,bind,Except.bind] at decoded
      | ok others =>
        simp only [read,later,bind,Except.bind,pure,Except.pure,Except.ok.injEq] at decoded
        subst decoded
        exact .cons read (ih later)

section
variable (deps : Dependencies Proof Encoded Body)

/-- What goes out in place of an entry of the client: a proof that was returned for the blob that
the entry is read as, or the entry itself if there is no data in it. -/
inductive Replaces (answered : List (Answered Proof)) (entry : Json) : Json → Prop
  | kept (bare : ¬ CarriesData deps entry) : Replaces answered entry entry
  | proved (blob sentBlob proof) (read : deps.blobFromValue entry = .ok blob)
      (returned : Returned deps answered blob.data proof) (data : sentBlob.data = deps.proofCodec.serialize proof)
      (resent : deps.blobFromValue (deps.blobToValue sentBlob) = .ok sentBlob) :
      Replaces answered entry (deps.blobToValue sentBlob)

/-- Each `blob.Submit` in the forwarded body holds, for the client's entries in order, proofs
that calls have returned for them, and no other data. -/
def OnlyProofs (answered : List (Answered Proof)) (req : IncomingRequest Body) (forwarded : Request Body) : Prop :=
  ∃ clientJson forwardedJson, req.json deps = .ok clientJson ∧ forwarded.body = deps.toVec forwardedJson ∧
    List.Forall₂ (fun clientObject object =>
      List.Forall₂ (Replaces deps answered) (submittedEntries clientObject) (submittedEntries object))
      (requestObjects clientJson) (requestObjects forwardedJson)

/-- The body is no batch with data in a submission among its elements. -/
def NoBatchSubmit (req : IncomingRequest Body) : Prop :=
  ∀ bodyJson ∈ (req.json deps).toOption, ∀ item ∈ bodyJson.asArray.getD [],
    ∀ entry ∈ submittedEntries item, ¬ CarriesData deps entry

/-- The body goes out as it came, with a client's data in one of its calls of `blob.Submit`. -/
def ForwardsData (req : IncomingRequest Body) (forwarded : Request Body) : Prop :=
  ∃ clientJson, req.json deps = .ok clientJson ∧ forwarded.body = deps.toVec clientJson ∧
    ∃ object ∈ requestObjects clientJson, ∃ entry ∈ submittedEntries object, CarriesData deps entry

end

theorem replaces_of_encrypted {entries : List Json} {blobs encryptedBlobs : List Blob}
    (read : List.Forall₂ (fun entry blob => deps.blobFromValue entry = .ok blob) entries blobs)
    (replaced : List.Forall₂ (Encrypted deps answered) blobs encryptedBlobs) :
    List.Forall₂ (Replaces deps answered) entries (encryptedBlobs.map deps.blobToValue) := by
  induction read generalizing encryptedBlobs with
  | nil =>
    cases replaced
    exact .nil
  | cons here _ ih =>
    cases replaced with
    | cons encrypted later =>
      obtain ⟨proof,returned,made⟩ := encrypted
      exact .cons (.proved _ _ proof here returned (deps.blobNew_fields made).2 (deps.blob_round_trip made)) (ih later)

/-- In place of data a proof goes out. -/
theorem Replaces.returned {entry sent : Json} (replaces : Replaces deps answered entry sent)
    (carries : CarriesData deps entry) : ∃ data proof, Returned deps answered data proof := by
  cases replaces with
  | kept bare => exact absurd carries bare
  | proved blob sentBlob proof read returned => exact ⟨_,proof,returned⟩

theorem Forwarded.onlyProofs {req : IncomingRequest Body} {forwarded : Request Body}
    (accepted : NoBatchSubmit deps req) (sound : Forwarded deps answered req forwarded) :
    OnlyProofs deps answered req forwarded := by
  cases sound with
  | unchanged bodyJson parsed other bare =>
    refine ⟨bodyJson,bodyJson,parsed,rfl,List.forall₂_same.mpr fun object member => ?_⟩
    refine List.forall₂_same.mpr fun entry listed => .kept ?_
    cases bodyJson with
    | array items => exact accepted (.array items) (by simp [parsed,Except.toOption]) object member entry listed
    | _ =>
      obtain rfl := List.mem_singleton.mp member
      rw [bare] at listed
      cases listed
  | encrypted bodyJson blobs encryptedBlobs parsed submitted replaced =>
    obtain ⟨method,blobsValue,others,params,decoded⟩ := submittedBlobs_eq_some.mp submitted
    have sent := (overwriteBlobs_method bodyJson (deps.blobsToValue encryptedBlobs)).trans method
    refine ⟨bodyJson,_,parsed,rfl,?_⟩
    rw [requestObjects_of_method method,requestObjects_of_method sent]
    refine .cons ?_ .nil
    have sentParams : (overwriteBlobs bodyJson (deps.blobsToValue encryptedBlobs)).get "params" =
        some (.array (deps.blobsToValue encryptedBlobs :: others)) := by
      rw [overwriteBlobs_params params,Json.get_set _ _ _ _ params]
    rw [submittedEntries_params sent sentParams]
    cases blobsValue with
    | array entries =>
      rw [submittedEntries_params method params]
      exact replaces_of_encrypted (entries_of_blobs decoded) replaced
    | _ => cases decoded

theorem Forwarded.forwardsData {req : IncomingRequest Body} {forwarded : Request Body}
    (batch : ¬ NoBatchSubmit deps req) (sound : Forwarded deps answered req forwarded) :
    ForwardsData deps req forwarded := by
  unfold NoBatchSubmit at batch
  push Not at batch
  obtain ⟨bodyJson,read,item,listed,entry,inside,carries⟩ := batch
  have parsed : req.json deps = .ok bodyJson := by
    cases same : req.json deps with
    | error e => simp [same,Except.toOption] at read
    | ok json => simpa [same,Except.toOption] using read
  cases bodyJson with
  | array items =>
    cases sound with
    | unchanged clientJson same other bare =>
      cases parsed.symm.trans same
      exact ⟨_,parsed,rfl,item,listed,entry,inside,carries⟩
    | encrypted clientJson blobs encryptedBlobs same submitted replaced =>
      -- An array has no method, so its submission is not seen.
      cases parsed.symm.trans same
      cases (submittedBlobs_eq_some.mp submitted).1
  | _ => cases listed

instance (accepts : IncomingRequest Body → Prop) [DecidablePred accepts] :
    ∀ action : Action Proof Body, Decidable (Receives accepts action)
  | .receive req => inferInstanceAs (Decidable (accepts req))
  | .request _ _ | .recv | .task _ _ | .shutdown | .exit | .crash _ | .restart _ => inferInstanceAs (Decidable True)

instance : DecidablePred (NoBatchSubmit deps) := fun req =>
  inferInstanceAs (Decidable (∀ bodyJson ∈ (req.json deps).toOption, ∀ item ∈ bodyJson.asArray.getD [],
    ∀ entry ∈ submittedEntries item, ¬ CarriesData deps entry))

namespace Tabulated

theorem unsigned_submitted (ns data : Bytes) :
    submittedBlobs dependencies (call "blob.Submit" [blobToValue ⟨ns,data,0,[],none,none⟩]) =
      some [⟨ns,data,0,[],none,none⟩] := by
  refine submittedBlobs_eq_some.mpr ⟨rfl,_,[.object []],rfl,blobsFromValue_blobsToValue [_] ?_⟩
  intro blob member
  obtain rfl := List.mem_singleton.mp member
  exact ⟨ns,data,blobNew_eq ns data⟩

theorem plainBlob_submitted :
    submittedBlobs dependencies (call "blob.Submit" [plainBlob]) = some [⟨List.replicate 29 0,[1,2,3],0,[],none,none⟩] :=
  unsigned_submitted _ _

end Tabulated

end PdaProxy
