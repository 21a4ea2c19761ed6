import TwinVoice.Assets.Service
import TwinVoice.Lib.MergePatch
import TwinVoice.Lib.Transition
import TwinVoice.Lib.Traversal

/-! # The registry and the twin store

`TwinSyncService` keeps the things of Ditto in step with the registry of
assets. It is called inside the transaction of the registry, before the
commit. A call of the store can fail before it has any effect, or after, and so
can the commit; nothing that has reached the store is taken back. -/

namespace TwinVoice.Assets

open TwinVoice.Lib TwinVoice.Lib.Transition
open TwinVoice.Lib.Json (Document)

/-! ## Policies -/

structure Grants where
  grant : List String
  revoke : List String

structure PolicyEntry where
  subjects : List String
  resources : List (String × Grants)

abbrev Policy := List (String × PolicyEntry)

namespace Policies

def activePolicyId : String := "twinvoice:active"
def retiredPolicyId : String := "twinvoice:retired"
def thingNamespace : String := "twinvoice"
def systemSubject : String := "pre:twinvoice-api"
def roleSubject (role : String) : String := "pre:role-" ++ role

def rw : Grants := ⟨["READ", "WRITE"], []⟩
def r : Grants := ⟨["READ"], []⟩

def activePolicy : Policy :=
  [("system", ⟨[systemSubject], [("thing:/", rw), ("policy:/", rw), ("message:/", rw)]⟩),
    ("engineer", ⟨["engineer", "admin"].map roleSubject, [("thing:/", rw), ("message:/", rw)]⟩),
    ("reader", ⟨["technician", "manager"].map roleSubject, [("thing:/", r), ("message:/", r)]⟩)]

def retiredPolicy : Policy :=
  [("system", ⟨[systemSubject], [("thing:/", r), ("policy:/", rw)]⟩),
    ("reader", ⟨["technician", "manager", "engineer", "admin"].map roleSubject, [("thing:/", r)]⟩)]

def thingId (code : String) : String := thingNamespace ++ ":" ++ code

end Policies

open Policies

/-- Some entry grants it to the subject, and none revokes it. -/
def Policy.allows (p : Policy) (subject resource permission : String) : Bool :=
  let entries := (p.map Prod.snd).filter fun e => subject ∈ e.subjects
  entries.any (fun e => (e.resources.lookup resource).any fun g => permission ∈ g.grant) &&
    !entries.any fun e => (e.resources.lookup resource).any fun g => permission ∈ g.revoke

/-! ## The store -/

/-- The policies and the things of the store. -/
structure Ditto where
  policies : Dict String Policy
  things : Dict String Document

inductive Call
  | putPolicy (id : String) (policy : Policy)
  | putThing (id : String) (thing : Document)
  | mergeThing (id : String) (patch : Document)
  | setPolicyId (id policyId : String)

inductive Response
  | done
  | notFound
  | refused
  deriving DecidableEq

namespace Ditto

/-- The policy of a thing, if there is one. -/
def policyOf (d : Ditto) (thing : Document) : Option Policy :=
  match thing.value ["policyId"] with
  | .str id => d.policies.get? id
  | _ => none

/-- The API may write the thing. -/
def writable (d : Ditto) (thing : Document) : Bool :=
  (d.policyOf thing).any fun p => p.allows systemSubject "thing:/" "WRITE"

/-- The answer to a call, and the store after it. -/
def serve (d : Ditto) : Call → Response × Ditto
  | .putPolicy id policy => (.done, { d with policies := d.policies.set id policy })
  | .putThing id thing =>
    if (d.policyOf thing).isSome && (d.things.get? id).all d.writable then
      (.done, { d with things := d.things.set id thing })
    else (.refused, d)
  | .mergeThing id patch =>
    match d.things.get? id with
    | none => (.notFound, d)
    | some thing =>
      if d.writable thing then (.done, { d with things := d.things.set id (thing.merge patch) }) else (.refused, d)
  | .setPolicyId id policyId =>
    match d.things.get? id with
    | none => (.notFound, d)
    | some thing =>
      if d.writable thing && (d.policies.get? policyId).isSome then
        (.done, { d with things := d.things.set id (.obj (thing.members.set "policyId" (.str policyId))) })
      else (.refused, d)

end Ditto

/-! ## The client -/

/-- What becomes of a call: it does not reach the store, or its answer does not come back, or the store refuses it on
grounds of its own, or it is answered, with this message if it is refused. -/
inductive Fate
  | unreached
  | lost
  | declined (message : String)
  | answered (message : String)

/-- The service, and the store that it speaks to. -/
structure Twin where
  ditto : Ditto
  policiesReady : Bool

/-- What is asked of the store: how it ends, and the store after it. -/
abbrev Remote := Twin → Except Failure Unit × Twin

/-- One after the other, unless the first raises. -/
def Remote.andThen (m n : Remote) : Remote := fun twin =>
  match m twin with
  | (.ok (), twin') => n twin'
  | (.error e, twin') => (.error e, twin')

def Call.method : Call → String
  | .mergeThing .. => "PATCH"
  | _ => "PUT"

def Call.path : Call → String
  | .putPolicy id _ => "/policies/" ++ id
  | .putThing id _ | .mergeThing id _ => "/things/" ++ id
  | .setPolicyId id _ => "/things/" ++ id ++ "/policyId"

def unreachable : Failure := .problem (.serviceUnavailable "Twin store (Ditto) unreachable")

def rejected (call : Call) (message : String) : Failure :=
  .problem (.badGateway ("Twin store rejected " ++ call.method ++ " " ++ call.path ++ ": " ++ message))

/-- `_request`. -/
def request (fate : Fate) (call : Call) : Remote := fun twin =>
  let (response, ditto) := twin.ditto.serve call
  match fate with
  | .unreached => (.error unreachable, twin)
  | .lost => (.error unreachable, { twin with ditto })
  | .declined message => (.error (rejected call message), twin)
  | .answered message =>
    if response = .refused then (.error (rejected call message), { twin with ditto })
    else (.ok (), { twin with ditto })

/-! ## The service -/

/-- The codes of the line of an asset and of its plant. -/
structure Place where
  lineCode : String
  plantCode : String

section
variable {P D : Type} (py : Texts P D)

def orNull : Option String → Document
  | some s => .str s
  | none => .null

def attributes (asset : Asset D) (place : Place) : Document :=
  .obj [("code", .str asset.code), ("name", .str asset.name), ("asset_type", .str asset.assetType),
    ("manufacturer", orNull asset.manufacturer), ("model", orNull asset.model), ("serial_no", orNull asset.serialNo),
    ("install_date", orNull (asset.installDate.map py.isoformat)), ("fidelity_level", .int asset.fidelityLevel),
    ("aas_id", orNull asset.aasId), ("line_code", .str place.lineCode), ("plant_code", .str place.plantCode)]

def noHealth : Document := .obj [("health", .null), ("rul", .null)]

/-- A thing as `create_thing` puts it. -/
def newThing (asset : Asset D) (place : Place) (components : List (Component P)) : Document :=
  .obj [("policyId", .str activePolicyId), ("attributes", attributes py asset place),
    ("features", .obj [("telemetry", .obj [("properties", .obj [])]),
      ("state", .obj [("properties", .obj [("status", .str asset.status)])]),
      ("prediction", .obj [("properties", .obj [])]),
      ("components", .obj [("properties", .obj (components.map fun c => (c.code, noHealth)))])])]

def updatePatch (asset : Asset D) (place : Place) : Document :=
  .obj [("attributes", attributes py asset place),
    ("features", .obj [("state", .obj [("properties", .obj [("status", .str asset.status)])])])]

def componentPatch (code : String) : Document :=
  .obj [("features", .obj [("components", .obj [("properties", .obj [(code, noHealth)])])])]

def ensurePolicies (fate : Nat → Fate) : Remote := fun twin =>
  if twin.policiesReady then (.ok (), twin)
  else
    (((request (fate 0) (.putPolicy activePolicyId activePolicy)).andThen
      (request (fate 1) (.putPolicy retiredPolicyId retiredPolicy))).andThen
        fun twin => (.ok (), { twin with policiesReady := true })) twin

def createThing (fate : Nat → Fate) (asset : Asset D) (place : Place) (components : List (Component P)) : Remote :=
  (ensurePolicies fate).andThen <| request (fate 2)
    (.putThing (thingId asset.code) (newThing py asset place components))

def updateThing (fate : Nat → Fate) (asset : Asset D) (place : Place) : Remote :=
  request (fate 0) (.mergeThing (thingId asset.code) (updatePatch py asset place))

def addComponent (fate : Nat → Fate) (asset : Asset D) (code : String) : Remote :=
  request (fate 0) (.mergeThing (thingId asset.code) (componentPatch code))

def retireThing (fate : Nat → Fate) (asset : Asset D) : Remote :=
  (ensurePolicies fate).andThen <| request (fate 2) (.setPolicyId (thingId asset.code) retiredPolicyId)

/-! ## Requests -/

/-- An asset of the registry with its rows; a retired one stays there. -/
structure Registered (P D : Type) where
  stored : Stored P D
  place : Place
  retired : Bool

def Registered.code (r : Registered P D) : String := r.stored.asset.code

/-- What is committed, and the other side. -/
structure World (P D : Type) where
  registry : List (Registered P D)
  twin : Twin

def World.empty : World P D := ⟨[], ⟨⟨[], []⟩, false⟩⟩

/-- An asset is named by its place in the registry, which stands for its id. -/
inductive Request (P D : Type)
  | create (lineId : String) (line : Option Place) (data : AssetCreate D) (components : List (ComponentSpec P)) (sensors : List SensorSpec)
    (nameplate technicalData : Option Submodel) (firstId : Uuid)
  | update (id : Nat) (data : AssetUpdate D)
  | retire (id : Nat)
  | addComponent (id : Nat) (spec : ComponentSpec P) (componentId : Uuid)

/-- `_assert_code_free`. -/
def assertCodeFree (registry : List (Registered P D)) (code : String) : Except Failure Unit :=
  if registry.any fun r => !r.retired && r.code = code then
    .error (.problem (.conflict ("Asset code '" ++ code ++ "' already exists")))
  else if registry.any fun r => r.retired && r.code = code then
    .error (.problem (.conflict ("Asset code '" ++ code ++ "' belongs to a retired twin; choose another code")))
  else .ok ()

/-- `get_or_404`: repositories do not show what is retired. -/
def getOr404 (registry : List (Registered P D)) (id : Nat) : Except Failure (Registered P D) :=
  match registry[id]?.filter fun r => !r.retired with
  | some r => .ok r
  | none => .error (.problem (.notFound ("Asset " ++ toString id ++ " not found")))

def newComponent (spec : ComponentSpec P) (id : Uuid) : Component P :=
  ⟨id, spec.code, spec.name, spec.componentType, .ofRat spec.healthWeight, spec.physicsModel, spec.physicsParams⟩

/-- A request up to its commit: the registry as it would be, and what is asked of the store before. -/
def prepare (registry : List (Registered P D)) (fate : Nat → Fate) :
    Request P D → Except Failure (List (Registered P D) × Remote)
  | .create lineId line data components sensors nameplate technicalData firstId => do
    let some place := line | throw (.problem (.unprocessable ("Line " ++ lineId ++ " does not exist")))
    assertCodeFree registry data.code
    let stored ← createAsset py data components sensors nameplate technicalData firstId
    return (registry ++ [⟨stored, place, false⟩], createThing py fate stored.asset place stored.components)
  | .update id data => do
    let r ← getOr404 registry id
    let stored ← updateAsset py r.stored data (.ok ())
    return (registry.set id { r with stored }, updateThing py fate stored.asset r.place)
  | .retire id => do
    let r ← getOr404 registry id
    return (registry.set id { r with retired := true }, retireThing fate r.stored.asset)
  | .addComponent id spec componentId => do
    let r ← getOr404 registry id
    if r.stored.components.any fun c => c.code = spec.code then
      throw (.problem (.conflict ("Component code '" ++ spec.code ++ "' already exists on " ++ r.code)))
    let stored := { r.stored with components := r.stored.components ++ [newComponent spec componentId] }
    return (registry.set id { r with stored }, addComponent fate stored.asset spec.code)

/-- A request to its end. -/
def World.serve (w : World P D) (q : Request P D) (fate : Nat → Fate) (commits : Bool) : Except Failure Unit × World P D :=
  match prepare py w.registry fate q with
  | .error e => (.error e, w)
  | .ok (registry, sync) =>
    match sync w.twin with
    | (.error e, twin) => (.error e, { w with twin })
    | (.ok (), twin) =>
      if commits then (.ok (), ⟨registry, twin⟩) else (.error (.crash "OperationalError"), { w with twin })

/-- The features that others write. -/
inductive Feature
  | telemetry
  | prediction

def Feature.name : Feature → String
  | .telemetry => "telemetry"
  | .prediction => "prediction"

def featurePatch (feature : Feature) (properties : Document) : Document :=
  .obj [("features", .obj [(feature.name, .obj [("properties", properties)])])]

inductive Event (P D : Type)
  | request (q : Request P D) (fate : Nat → Fate) (commits : Bool)
  | patch (thing : String) (feature : Feature) (properties : Document) (fate : Fate)
  | restart

/-- What happens next. Whoever writes the features of a thing goes on if that fails. -/
def World.step (w : World P D) : Event P D → World P D
  | .request q fate commits => (w.serve py q fate commits).2
  | .patch thing feature properties fate =>
    { w with twin := (request fate (.mergeThing thing (featurePatch feature properties)) w.twin).2 }
  | .restart => { w with twin := { w.twin with policiesReady := false } }

end

/-! ## One call -/

/-- The thing that a call makes, or makes of the thing that is there. -/
inductive Call.Writes (d : Ditto) : Call → String → Document → Prop
  | put {id thing} (h : (d.policyOf thing).isSome) : Writes d (.putThing id thing) id thing
  | merge {id thing patch} (h : d.things.get? id = some thing) : Writes d (.mergeThing id patch) id (thing.merge patch)
  | bind {id thing policyId} (h : d.things.get? id = some thing) (hpolicy : (d.policies.get? policyId).isSome) :
    Writes d (.setPolicyId id policyId) id (.obj (thing.members.set "policyId" (.str policyId)))

/-- The thing that a call is about. -/
def Call.thing : Call → Option String
  | .putPolicy .. => none
  | .putThing id _ | .mergeThing id _ | .setPolicyId id _ => some id

theorem Call.Writes.thing {d : Ditto} {call : Call} {id : String} {new : Document} (h : call.Writes d id new) :
    call.thing = some id := by
  cases h <;> rfl

/-- The store takes a policy, or writes a thing that it may write, or stays as it is. -/
theorem Ditto.serve_cases (d : Ditto) (call : Call) :
    (∃ id p, call = .putPolicy id p ∧ d.serve call = (.done, { d with policies := d.policies.set id p })) ∨
    (∃ id new, call.Writes d id new ∧ d.serve call = (.done, { d with things := d.things.set id new })) ∨
    d.serve call = (.refused, d) ∨
    (d.serve call = (.notFound, d) ∧
      ∃ id, call.thing = some id ∧ d.things.get? id = none ∧ ∀ thing, call ≠ .putThing id thing) := by
  cases call with
  | putPolicy id p => exact .inl ⟨id, p, rfl, rfl⟩
  | putThing id thing =>
    right
    rw [serve]
    split
    · rename_i hok
      exact .inl ⟨id, thing, .put (Bool.and_eq_true_iff.mp hok).1, rfl⟩
    · exact .inr (.inl rfl)
  | mergeThing id patch =>
    right
    rw [serve]
    cases hthing : d.things.get? id with
    | none => exact .inr (.inr ⟨rfl, id, rfl, hthing, by simp⟩)
    | some thing =>
      dsimp only
      split
      · exact .inl ⟨id, _, .merge hthing, rfl⟩
      · exact .inr (.inl rfl)
  | setPolicyId id policyId =>
    right
    rw [serve]
    cases hthing : d.things.get? id with
    | none => exact .inr (.inr ⟨rfl, id, rfl, hthing, by simp⟩)
    | some thing =>
      dsimp only
      split
      · rename_i hok
        exact .inl ⟨id, _, .bind hthing (Bool.and_eq_true_iff.mp hok).2, rfl⟩
      · exact .inr (.inl rfl)

variable {fate : Fate} {call : Call} {twin : Twin}

def Twin.served (twin : Twin) (call : Call) : Twin := { twin with ditto := (twin.ditto.serve call).2 }

/-- A call that fails leaves everything as it was, if its answer is not lost; one that is answered has its effect. -/
theorem request_cases (fate : Fate) (call : Call) (twin : Twin) :
    (∃ e, request fate call twin = (.error e, twin)) ∨
    (∃ e, request fate call twin = (.error e, twin.served call) ∧ fate = .lost) ∨
    (request fate call twin = (.ok (), twin.served call) ∧ (twin.ditto.serve call).1 ≠ .refused) := by
  cases fate with
  | unreached => exact .inl ⟨_, rfl⟩
  | lost => exact .inr (.inl ⟨_, rfl, rfl⟩)
  | declined message => exact .inl ⟨_, rfl⟩
  | answered message =>
    by_cases hrefused : (twin.ditto.serve call).1 = .refused
    · left
      have hsame : (twin.ditto.serve call).2 = twin.ditto := by
        rcases twin.ditto.serve_cases call with ⟨_, _, _, h⟩ | ⟨_, _, _, h⟩ | h | ⟨h, _⟩
        · rw [h] at hrefused
          cases hrefused
        · rw [h] at hrefused
          cases hrefused
        · rw [h]
        · rw [h]
      refine ⟨rejected call message, ?_⟩
      dsimp only [request]
      rw [if_pos hrefused, hsame]
    · refine .inr (.inr ⟨?_, hrefused⟩)
      dsimp only [request]
      rw [if_neg hrefused]
      rfl

/-- What the store keeps at a call is kept, however the call ends. -/
theorem request_keeps {I : Twin → Prop} (h : I twin) (hserved : I (twin.served call)) (fate : Fate) :
    I (request fate call twin).2 := by
  rcases request_cases fate call twin with ⟨e, heq⟩ | ⟨e, heq, -⟩ | ⟨heq, -⟩
  · rw [heq]
    exact h
  · rw [heq]
    exact hserved
  · rw [heq]
    exact hserved

theorem request_ok {twin' : Twin} (h : request fate call twin = (.ok (), twin')) :
    twin' = twin.served call ∧ (twin.ditto.serve call).1 ≠ .refused := by
  rcases request_cases fate call twin with ⟨e, heq⟩ | ⟨e, heq, -⟩ | ⟨heq, hnot⟩
  · cases heq.symm.trans h
  · cases heq.symm.trans h
  · cases heq.symm.trans h
    exact ⟨rfl, hnot⟩

theorem Remote.andThen_keeps {I : Twin → Prop} {m n : Remote} (hm : ∀ twin, I twin → I (m twin).2)
    (hn : ∀ twin, I twin → I (n twin).2) (h : I twin) : I (m.andThen n twin).2 := by
  have hfirst := hm twin h
  rw [Remote.andThen]
  split
  · rename_i twin' heq
    rw [heq] at hfirst
    exact hn twin' hfirst
  · rename_i e twin' heq
    rw [heq] at hfirst
    exact hfirst

theorem Remote.andThen_ok {m n : Remote} {twin' : Twin} (h : m.andThen n twin = (.ok (), twin')) :
    ∃ between, m twin = (.ok (), between) ∧ n between = (.ok (), twin') := by
  rw [Remote.andThen] at h
  split at h
  · rename_i between heq
    exact ⟨between, heq, h⟩
  · cases h

/-! ## Policies in force -/

/-- The service has put the two policies into the store and no other, every thing has one of them, and what the
service remembers of it is right. -/
structure Governed (twin : Twin) : Prop where
  known : ∀ id p, twin.ditto.policies.get? id = some p →
    (id = activePolicyId ∧ p = activePolicy) ∨ (id = retiredPolicyId ∧ p = retiredPolicy)
  ready : twin.policiesReady = true → twin.ditto.policies.get? activePolicyId = some activePolicy ∧
    twin.ditto.policies.get? retiredPolicyId = some retiredPolicy
  bound : ∀ id thing, twin.ditto.things.get? id = some thing → ∃ policyId p,
    thing.value ["policyId"] = .str policyId ∧ twin.ditto.policies.get? policyId = some p

/-- What the service, and whoever writes features, may ask of the store. -/
def Call.Allowed : Call → Prop
  | .putPolicy id p => (id = activePolicyId ∧ p = activePolicy) ∨ (id = retiredPolicyId ∧ p = retiredPolicy)
  | .putThing _ thing => thing.value ["policyId"] = .str activePolicyId
  | .mergeThing _ patch => patch.Distinct ["policyId"] ∧ patch.patched ["policyId"] = none
  | .setPolicyId _ policyId => policyId = retiredPolicyId

/-- The thing is that of a retired asset. -/
def ReadOnly (thing : Document) : Prop := thing.value ["policyId"] = .str retiredPolicyId

theorem Governed.writable_iff (h : Governed twin) {id : String} {thing : Document}
    (hthing : twin.ditto.things.get? id = some thing) : twin.ditto.writable thing = true ↔ ¬ReadOnly thing := by
  obtain ⟨policyId, p, hvalue, hp⟩ := h.bound id thing hthing
  have hpolicy : twin.ditto.policyOf thing = some p := by
    rw [Ditto.policyOf, hvalue]
    exact hp
  rw [Ditto.writable, hpolicy, Option.any_some, ReadOnly, hvalue]
  rcases h.known policyId p hp with ⟨rfl, rfl⟩ | ⟨rfl, rfl⟩
  · exact iff_of_true (by decide +kernel) (by simp [activePolicyId, retiredPolicyId])
  · exact iff_of_false (by decide +kernel) (by simp)

/-- A thing that an allowed call writes has the policy for active ones, or the one it had, or becomes read-only. -/
theorem Call.Writes.policy {d : Ditto} {id : String} {new : Document} (h : call.Writes d id new) (hallowed : call.Allowed) :
    (new.value ["policyId"] = .str activePolicyId ∧ (d.policyOf new).isSome) ∨
    (∃ old, d.things.get? id = some old ∧ new.value ["policyId"] = old.value ["policyId"]) ∨
    (new.value ["policyId"] = .str retiredPolicyId ∧ (d.policies.get? retiredPolicyId).isSome) := by
  cases h with
  | put hpolicy => exact .inl ⟨hallowed, hpolicy⟩
  | merge hthing =>
    obtain ⟨hdistinct, hnone⟩ := hallowed
    exact .inr (.inl ⟨_, hthing, Document.value_merge_of_none hdistinct hnone _⟩)
  | bind hthing hpolicy =>
    have hid : _ = retiredPolicyId := hallowed
    subst hid
    refine .inr (.inr ⟨?_, hpolicy⟩)
    rw [Document.value_cons, Document.members, Dict.get?_set, if_pos rfl]
    rfl

theorem Governed.served (h : Governed twin) (hallowed : call.Allowed) : Governed (twin.served call) := by
  have hsame (hserve : (twin.ditto.serve call).2 = twin.ditto) : Governed (twin.served call) := by
    rw [Twin.served, hserve]
    exact h
  rcases twin.ditto.serve_cases call with ⟨id, p, rfl, hserve⟩ | ⟨id, new, hwrites, hserve⟩ | hserve | ⟨hserve, -⟩
  · have hset : twin.served (.putPolicy id p) =
        { twin with ditto := { twin.ditto with policies := twin.ditto.policies.set id p } } := by
      rw [Twin.served, hserve]
    rw [hset]
    -- a policy that is there is put again as it is
    have hkept (id' : String) (p' : Policy) (hp' : twin.ditto.policies.get? id' = some p') :
        (twin.ditto.policies.set id p).get? id' = some p' := by
      rw [Dict.get?_set]
      split
      · rename_i hid
        subst hid
        rcases hallowed with ⟨hid, hp⟩ | ⟨hid, hp⟩ <;> rcases h.known _ _ hp' with ⟨hid', hp''⟩ | ⟨hid', hp''⟩
        · rw [hp, hp'']
        · exact absurd (hid.symm.trans hid') (by simp [activePolicyId, retiredPolicyId])
        · exact absurd (hid.symm.trans hid') (by simp [activePolicyId, retiredPolicyId])
        · rw [hp, hp'']
      · exact hp'
    refine ⟨fun id' p' hp' => ?_, fun hready => ?_, fun id' thing hthing => ?_⟩
    · rw [Dict.get?_set] at hp'
      split at hp'
      · rename_i hid
        subst hid
        cases hp'
        exact hallowed
      · exact h.known id' p' hp'
    · exact ⟨hkept _ _ (h.ready hready).1, hkept _ _ (h.ready hready).2⟩
    · obtain ⟨policyId, p', hvalue, hp'⟩ := h.bound id' thing hthing
      exact ⟨policyId, p', hvalue, hkept policyId p' hp'⟩
  · have hset : twin.served call = { twin with ditto := { twin.ditto with things := twin.ditto.things.set id new } } := by
      rw [Twin.served, hserve]
    rw [hset]
    refine ⟨h.known, h.ready, fun id' thing hthing => ?_⟩
    rw [Dict.get?_set] at hthing
    split at hthing
    · cases hthing
      rcases hwrites.policy hallowed with ⟨hvalue, hpolicy⟩ | ⟨old, hold, hvalue⟩ | ⟨hvalue, hpolicy⟩
      · rw [Ditto.policyOf, hvalue] at hpolicy
        obtain ⟨p, hp⟩ := Option.isSome_iff_exists.mp hpolicy
        exact ⟨_, p, hvalue, hp⟩
      · obtain ⟨policyId, p, hvalue', hp⟩ := h.bound id old hold
        exact ⟨policyId, p, hvalue.trans hvalue', hp⟩
      · obtain ⟨p, hp⟩ := Option.isSome_iff_exists.mp hpolicy
        exact ⟨_, p, hvalue, hp⟩
    · exact h.bound id' thing hthing
  · exact hsame (congrArg Prod.snd hserve)
  · exact hsame (congrArg Prod.snd hserve)

/-- The thing is there, and is read-only. -/
def Frozen (id : String) (thing : Document) (twin : Twin) : Prop :=
  Governed twin ∧ twin.ditto.things.get? id = some thing ∧ ReadOnly thing

/-- A call about a read-only thing is refused. -/
theorem Frozen.refused {id : String} {thing : Document} (h : Frozen id thing twin) (hcall : call.thing = some id) :
    (twin.ditto.serve call).1 = .refused := by
  obtain ⟨hgoverned, hthing, honly⟩ := h
  have hnot : twin.ditto.writable thing = false :=
    Bool.not_eq_true _ ▸ fun hwritable => (hgoverned.writable_iff hthing).mp hwritable honly
  cases call with
  | putPolicy id' p => cases hcall
  | putThing id' new =>
    cases hcall
    simp [Ditto.serve, hthing, hnot]
  | mergeThing id' patch =>
    cases hcall
    simp [Ditto.serve, hthing, hnot]
  | setPolicyId id' policyId =>
    cases hcall
    simp [Ditto.serve, hthing, hnot]

theorem Frozen.served {id : String} {thing : Document} (h : Frozen id thing twin) (hallowed : call.Allowed) :
    Frozen id thing (twin.served call) := by
  refine ⟨h.1.served hallowed, ?_, h.2.2⟩
  rcases twin.ditto.serve_cases call with ⟨id', p, -, hserve⟩ | ⟨id', new, hwrites, hserve⟩ | hserve | ⟨hserve, -⟩
  · rw [Twin.served, hserve]
    exact h.2.1
  · by_cases hid : id' = id
    · subst hid
      have hrefused := h.refused hwrites.thing
      rw [hserve] at hrefused
      cases hrefused
    · rw [Twin.served, hserve]
      exact (Dict.get?_set ..).trans ((if_neg hid).trans h.2.1)
  · rw [Twin.served, hserve]
    exact h.2.1
  · rw [Twin.served, hserve]
    exact h.2.1

/-- Nothing is ever deleted. -/
theorem Twin.served_present {id : String} (h : (twin.ditto.things.get? id).isSome) (call : Call) :
    ((twin.served call).ditto.things.get? id).isSome := by
  rcases twin.ditto.serve_cases call with ⟨id', p, -, hserve⟩ | ⟨id', new, -, hserve⟩ | hserve | ⟨hserve, -⟩
  · rw [Twin.served, hserve]
    exact h
  · rw [Twin.served, hserve]
    dsimp only
    rw [Dict.get?_set]
    split
    · rfl
    · exact h
  · rw [Twin.served, hserve]
    exact h
  · rw [Twin.served, hserve]
    exact h

/-! ## One request -/

/-- What is asked comes down to this one call, made at once or when the policies are there. -/
def Asks (fate : Nat → Fate) (call : Call) (sync : Remote) : Prop :=
  ∃ n, sync = request (fate n) call ∨ sync = (ensurePolicies fate).andThen (request (fate n) call)

section
variable {fate : Nat → Fate} {sync : Remote}

theorem putPolicy_things (fate : Fate) (id : String) (p : Policy) (twin : Twin) :
    (request fate (.putPolicy id p) twin).2.ditto.things = twin.ditto.things :=
  request_keeps (I := fun t => t.ditto.things = twin.ditto.things) rfl rfl fate

theorem ensurePolicies_things (fate : Nat → Fate) (twin : Twin) :
    (ensurePolicies fate twin).2.ditto.things = twin.ditto.things := by
  rw [ensurePolicies]
  split
  · rfl
  · refine Remote.andThen_keeps (I := fun t => t.ditto.things = twin.ditto.things) ?_ (fun t ht => ht) rfl
    intro t ht
    exact Remote.andThen_keeps (I := fun t => t.ditto.things = twin.ditto.things)
      (fun t ht => (putPolicy_things ..).trans ht) (fun t ht => (putPolicy_things ..).trans ht) ht

theorem Governed.ensurePolicies (h : Governed twin) (fate : Nat → Fate) : Governed (ensurePolicies fate twin).2 := by
  have hactive : (Call.putPolicy activePolicyId activePolicy).Allowed := .inl ⟨rfl, rfl⟩
  have hretired : (Call.putPolicy retiredPolicyId retiredPolicy).Allowed := .inr ⟨rfl, rfl⟩
  have hputs : Governed (((request (fate 0) (.putPolicy activePolicyId activePolicy)).andThen
      (request (fate 1) (.putPolicy retiredPolicyId retiredPolicy))) twin).2 :=
    Remote.andThen_keeps (fun t ht => request_keeps ht (ht.served hactive) _)
      (fun t ht => request_keeps ht (ht.served hretired) _) h
  rw [Assets.ensurePolicies]
  split
  · exact h
  · rw [Remote.andThen]
    split
    · rename_i twin' heq
      obtain ⟨between, hfirst, hsecond⟩ := Remote.andThen_ok heq
      obtain ⟨rfl, -⟩ := request_ok hfirst
      obtain ⟨rfl, -⟩ := request_ok hsecond
      rw [heq] at hputs
      refine ⟨hputs.known, fun _ => ⟨?_, ?_⟩, hputs.bound⟩
      · refine (Dict.get?_set ..).trans ((if_neg (by simp [activePolicyId, retiredPolicyId])).trans ?_)
        exact (Dict.get?_set ..).trans (if_pos rfl)
      · exact (Dict.get?_set ..).trans (if_pos rfl)
    · rename_i e twin' heq
      rw [heq] at hputs
      exact hputs

theorem Frozen.ensurePolicies {id : String} {thing : Document} (h : Frozen id thing twin) (fate : Nat → Fate) :
    Frozen id thing (ensurePolicies fate twin).2 :=
  ⟨h.1.ensurePolicies fate, (congrArg (·.get? id) (ensurePolicies_things fate twin)).trans h.2.1, h.2.2⟩

/-- What both kinds of call keep is kept. -/
theorem Asks.keeps {I : Twin → Prop} (h : Asks fate call sync) (hensure : ∀ t, I t → I (ensurePolicies fate t).2)
    (hserved : ∀ t, I t → I (t.served call)) (htwin : I twin) : I (sync twin).2 := by
  obtain ⟨n, rfl | rfl⟩ := h
  · exact request_keeps htwin (hserved _ htwin) _
  · exact Remote.andThen_keeps hensure (fun t ht => request_keeps ht (hserved t ht) _) htwin

theorem Asks.governed (h : Asks fate call sync) (hallowed : call.Allowed) (htwin : Governed twin) :
    Governed (sync twin).2 :=
  h.keeps (fun _ ht => ht.ensurePolicies fate) (fun _ ht => ht.served hallowed) htwin

theorem Asks.frozen (h : Asks fate call sync) (hallowed : call.Allowed) {id : String} {thing : Document}
    (htwin : Frozen id thing twin) : Frozen id thing (sync twin).2 :=
  h.keeps (fun _ ht => ht.ensurePolicies fate) (fun _ ht => ht.served hallowed) htwin

theorem Asks.present (h : Asks fate call sync) {id : String} (htwin : (twin.ditto.things.get? id).isSome) :
    ((sync twin).2.ditto.things.get? id).isSome := by
  refine h.keeps (I := fun t => (t.ditto.things.get? id).isSome) (fun t ht => ?_) (fun t ht => ?_) htwin
  · rw [ensurePolicies_things]
    exact ht
  · exact Twin.served_present ht call

/-- If it goes well, the call has been made, and not been refused. -/
theorem Asks.ok {twin' : Twin} (h : Asks fate call sync) (hok : sync twin = (.ok (), twin')) :
    ∃ between, (between.ditto.things = twin.ditto.things ∧ (Governed twin → Governed between)) ∧
      twin' = between.served call ∧ (between.ditto.serve call).1 ≠ .refused := by
  obtain ⟨n, rfl | rfl⟩ := h
  · exact ⟨twin, ⟨rfl, id⟩, request_ok hok⟩
  · obtain ⟨between, hensure, hrequest⟩ := Remote.andThen_ok hok
    refine ⟨between, ⟨?_, fun h => ?_⟩, request_ok hrequest⟩
    · have hthings := ensurePolicies_things fate twin
      rwa [hensure] at hthings
    · have hgoverned := h.ensurePolicies fate
      rwa [hensure] at hgoverned

/-- If it fails, and no answer was lost, the things are as they were. -/
theorem Asks.error {twin' : Twin} {e : Failure} (h : Asks fate call sync) (hclean : ∀ n, fate n ≠ .lost)
    (herror : sync twin = (.error e, twin')) : twin'.ditto.things = twin.ditto.things := by
  have hrequest {n : Nat} {t t' : Twin} (hfails : request (fate n) call t = (.error e, t')) : t' = t := by
    rcases request_cases (fate n) call t with ⟨e', heq⟩ | ⟨e', -, hlost⟩ | ⟨heq, -⟩
    · exact (congrArg Prod.snd (heq.symm.trans hfails)).symm
    · exact absurd hlost (hclean n)
    · cases heq.symm.trans hfails
  obtain ⟨n, rfl | rfl⟩ := h
  · rw [hrequest herror]
  · have hthings := ensurePolicies_things fate twin
    rw [Remote.andThen] at herror
    split at herror
    · rename_i between heq
      rw [heq] at hthings
      rw [hrequest herror]
      exact hthings
    · rename_i e' between heq
      rw [heq] at hthings
      cases herror
      exact hthings

/-- Nothing that is asked about a read-only thing goes well. -/
theorem Asks.fails {id : String} {thing : Document} {twin' : Twin} (h : Asks fate call sync)
    (hcall : call.thing = some id) (htwin : Frozen id thing twin) : sync twin ≠ (.ok (), twin') := by
  intro hok
  obtain ⟨between, ⟨hthings, hgoverned⟩, -, hnot⟩ := h.ok hok
  exact hnot (Frozen.refused ⟨hgoverned htwin.1, hthings ▸ htwin.2.1, htwin.2.2⟩ hcall)

end

section
variable {P D : Type} {py : Texts P D} {fate : Nat → Fate}

/-- The row that a request writes, the registry with it, and the call that it makes. -/
inductive Prepared (py : Texts P D) (registry : List (Registered P D)) :
    Registered P D → List (Registered P D) → Call → Prop
  | create (stored : Stored P D) (place : Place) (hfree : ∀ r ∈ registry, r.code ≠ stored.asset.code) :
    Prepared py registry ⟨stored, place, false⟩ (registry ++ [⟨stored, place, false⟩])
      (.putThing (thingId stored.asset.code) (newThing py stored.asset place stored.components))
  | update (id : Nat) (r : Registered P D) (stored : Stored P D) (hr : registry[id]? = some r) (hactive : r.retired = false)
    (hcode : stored.asset.code = r.code) (hcomponents : stored.components = r.stored.components) :
    Prepared py registry { r with stored } (registry.set id { r with stored })
      (.mergeThing (thingId stored.asset.code) (updatePatch py stored.asset r.place))
  | retire (id : Nat) (r : Registered P D) (hr : registry[id]? = some r) (hactive : r.retired = false) :
    Prepared py registry { r with retired := true } (registry.set id { r with retired := true })
      (.setPolicyId (thingId r.stored.asset.code) retiredPolicyId)
  | addComponent (id : Nat) (r : Registered P D) (c : Component P) (hr : registry[id]? = some r)
    (hactive : r.retired = false) :
    Prepared py registry { r with stored := { r.stored with components := r.stored.components ++ [c] } }
      (registry.set id { r with stored := { r.stored with components := r.stored.components ++ [c] } })
      (.mergeThing (thingId r.stored.asset.code) (componentPatch c.code))

theorem assertCodeFree_ok {registry : List (Registered P D)} {code : String}
    (h : assertCodeFree registry code = .ok ()) : ∀ r ∈ registry, r.code ≠ code := by
  intro r hr hcode
  rw [assertCodeFree] at h
  split at h
  · cases h
  · rename_i hactive
    split at h
    · cases h
    · rename_i hretired
      cases hr' : r.retired with
      | true => exact hretired (List.any_eq_true.mpr ⟨r, hr, by simp [hr', hcode]⟩)
      | false => exact hactive (List.any_eq_true.mpr ⟨r, hr, by simp [hr', hcode]⟩)

theorem getOr404_ok {registry : List (Registered P D)} {id : Nat} {r : Registered P D}
    (h : getOr404 registry id = .ok r) : registry[id]? = some r ∧ r.retired = false := by
  rw [getOr404] at h
  split at h
  · rename_i r' hfound
    cases h
    obtain ⟨hr, hactive⟩ := Option.filter_eq_some_iff.mp hfound
    exact ⟨hr, by simpa using hactive⟩
  · cases h

theorem storeSubmodels_ok {s stored : Stored P D} {nameplate technicalData : Option Submodel}
    (h : storeSubmodels py s nameplate technicalData = .ok stored) :
    stored.asset = s.asset ∧ stored.components = s.components := by
  obtain ⟨_, -, h⟩ := bind_eq_ok h
  obtain ⟨_, -, h⟩ := bind_eq_ok h
  cases h
  exact ⟨rfl, rfl⟩

theorem createAsset_code {data : AssetCreate D} {components : List (ComponentSpec P)} {sensors : List SensorSpec}
    {nameplate technicalData : Option Submodel} {firstId : Uuid} {stored : Stored P D}
    (h : createAsset py data components sensors nameplate technicalData firstId = .ok stored) :
    stored.asset.code = data.code := by
  rw [createAsset] at h
  split at h
  · obtain ⟨_, -, h⟩ := bind_eq_ok h
    rw [(storeSubmodels_ok h).1]
  · cases h

theorem updateAsset_code {s stored : Stored P D} {data : AssetUpdate D} {sync : Except Failure Unit}
    (h : updateAsset py s data sync = .ok stored) :
    stored.asset.code = s.asset.code ∧ stored.components = s.components := by
  obtain ⟨asset, hasset, h⟩ := bind_eq_ok h
  obtain ⟨updated, hupdated, h⟩ := bind_eq_ok h
  obtain ⟨_, -, h⟩ := bind_eq_ok h
  cases h
  obtain ⟨hsame, hcomponents⟩ := storeSubmodels_ok hupdated
  obtain ⟨_, -, hasset⟩ := bind_eq_ok hasset
  obtain ⟨_, -, hasset⟩ := bind_eq_ok hasset
  obtain ⟨_, -, hasset⟩ := bind_eq_ok hasset
  cases hasset
  exact ⟨by rw [hsame], hcomponents⟩

theorem prepare_ok {registry registry' : List (Registered P D)} {q : Request P D} {sync : Remote}
    (h : prepare py registry fate q = .ok (registry', sync)) :
    ∃ new call, Prepared py registry new registry' call ∧ Asks fate call sync := by
  cases q with
  | create lineId line data components sensors nameplate technicalData firstId =>
    cases line with
    | none => cases h
    | some place =>
      obtain ⟨_, hfree, h⟩ := bind_eq_ok h
      obtain ⟨stored, hstored, h⟩ := bind_eq_ok h
      cases h
      refine ⟨_, _, .create stored place ?_, 2, .inr rfl⟩
      rw [createAsset_code hstored]
      exact assertCodeFree_ok hfree
  | update id data =>
    obtain ⟨r, hr, h⟩ := bind_eq_ok h
    obtain ⟨stored, hstored, h⟩ := bind_eq_ok h
    cases h
    obtain ⟨hcode, hcomponents⟩ := updateAsset_code hstored
    exact ⟨_, _, .update id r stored (getOr404_ok hr).1 (getOr404_ok hr).2 hcode hcomponents, 0, .inl rfl⟩
  | retire id =>
    obtain ⟨r, hr, h⟩ := bind_eq_ok h
    cases h
    exact ⟨_, _, .retire id r (getOr404_ok hr).1 (getOr404_ok hr).2, 2, .inr rfl⟩
  | addComponent id spec componentId =>
    obtain ⟨r, hr, h⟩ := bind_eq_ok h
    dsimp only at h
    split at h
    · cases h
    · cases h
      exact ⟨_, _, .addComponent id r (newComponent spec componentId) (getOr404_ok hr).1 (getOr404_ok hr).2, 0, .inl rfl⟩

end

/-! ## Whole runs -/

namespace World

section
variable {P D : Type} {py : Texts P D}

/-- One event after another. -/
def Steps (py : Texts P D) : World P D → Event P D → World P D → Prop := fun w e w' => w.step py e = w'

/-- A request fails, with whatever became of the other side, or goes through. -/
theorem serve_cases (py : Texts P D) (w : World P D) (q : Request P D) (fate : Nat → Fate) (commits : Bool) :
    (w.serve py q fate commits).2 = w ∨
    ∃ new registry' call sync, Prepared py w.registry new registry' call ∧ Asks fate call sync ∧
      ((w.serve py q fate commits).2 = { w with twin := (sync w.twin).2 } ∧
          (commits = true → ∃ e, (sync w.twin).1 = .error e) ∨
        (w.serve py q fate commits).2 = ⟨registry', (sync w.twin).2⟩ ∧ (sync w.twin).1 = .ok ()) := by
  rw [serve]
  split
  · exact .inl rfl
  · rename_i registry' sync hprepare
    obtain ⟨new, call, hprepared, hasks⟩ := prepare_ok hprepare
    refine .inr ⟨new, registry', call, sync, hprepared, hasks, ?_⟩
    split
    · rename_i e twin heq
      rw [heq]
      exact .inl ⟨rfl, fun _ => ⟨e, rfl⟩⟩
    · rename_i twin heq
      rw [heq]
      cases commits with
      | true => exact .inr ⟨rfl, rfl⟩
      | false => exact .inl ⟨rfl, nofun⟩

end

end World

section
variable {P D : Type} {py : Texts P D} {registry registry' : List (Registered P D)} {new : Registered P D} {call : Call}

theorem Call.allowed_merge {patch : List (String × Document)} (hnodup : (patch.map Prod.fst).Nodup)
    (hnone : Dict.get? patch "policyId" = none) (id : String) : (Call.mergeThing id (.obj patch)).Allowed := by
  refine ⟨.stop hnodup hnone, ?_⟩
  rw [Document.patched, hnone]
  rfl

theorem updatePatch_allowed (asset : Asset D) (place : Place) (id : String) :
    (Call.mergeThing id (updatePatch py asset place)).Allowed :=
  Call.allowed_merge (by simp) rfl id

theorem componentPatch_allowed (code id : String) : (Call.mergeThing id (componentPatch code)).Allowed :=
  Call.allowed_merge (by simp) rfl id

theorem Call.policy_merge {id : String} {patch : Document} (h : (Call.mergeThing id patch).Allowed) (thing : Document) :
    (thing.merge patch).value ["policyId"] = thing.value ["policyId"] :=
  Document.value_merge_of_none h.1 h.2 thing

theorem Prepared.allowed (h : Prepared py registry new registry' call) : call.Allowed := by
  cases h with
  | create stored place hfree => rfl
  | update id r stored hr hactive hcode hcomponents => exact updatePatch_allowed ..
  | retire id r hr hactive => rfl
  | addComponent id r c hr hactive => exact componentPatch_allowed ..

theorem Prepared.thing (h : Prepared py registry new registry' call) : call.thing = some (thingId new.code) := by
  cases h with
  | update id r stored hr hactive hcode hcomponents => rfl
  | _ => rfl

/-- The row is a new one, with a code that no other has, or stands in the place of one with its code. -/
theorem Prepared.row (h : Prepared py registry new registry' call) :
    (registry' = registry ++ [new] ∧ (∀ r ∈ registry, r.code ≠ new.code) ∧ ∃ thing, call = .putThing (thingId new.code) thing) ∨
    ∃ id r, registry' = registry.set id new ∧ registry[id]? = some r ∧ r.retired = false ∧ r.code = new.code := by
  cases h with
  | create stored place hfree => exact .inl ⟨rfl, hfree, _, rfl⟩
  | update id r stored hr hactive hcode hcomponents => exact .inr ⟨id, r, rfl, hr, hactive, hcode.symm⟩
  | retire id r hr hactive => exact .inr ⟨id, r, rfl, hr, hactive, rfl⟩
  | addComponent id r c hr hactive => exact .inr ⟨id, r, rfl, hr, hactive, rfl⟩

theorem featurePatch_allowed (thing : String) (feature : Feature) (properties : Document) :
    (Call.mergeThing thing (featurePatch feature properties)).Allowed :=
  Call.allowed_merge (by simp) rfl _

theorem thingId_inj {code code' : String} (h : thingId code = thingId code') : code = code' :=
  String.append_right_inj _ |>.mp h

/-- No code is that of two rows; every row has its thing, and that of a retired one is read-only. -/
structure Sound (w : World P D) : Prop where
  governed : Governed w.twin
  codes : (w.registry.map Registered.code).Nodup
  present : ∀ r ∈ w.registry, (w.twin.ditto.things.get? (thingId r.code)).isSome
  retired : ∀ r ∈ w.registry, r.retired = true → ∃ thing, Frozen (thingId r.code) thing w.twin

/-- A call that went well has written its thing, if that was there or is put. -/
theorem Twin.served_writes {twin : Twin} {id : String} (hcall : call.thing = some id)
    (hthere : (twin.ditto.things.get? id).isSome ∨ ∃ thing, call = .putThing id thing)
    (hnot : (twin.ditto.serve call).1 ≠ .refused) :
    ∃ thing, call.Writes twin.ditto id thing ∧
      (twin.served call).ditto.things = twin.ditto.things.set id thing := by
  rcases twin.ditto.serve_cases call with ⟨id', p, rfl, hserve⟩ | ⟨id', thing, hwrites, hserve⟩ | hserve |
    ⟨hserve, id', hthing, hnone, hput⟩
  · cases hcall
  · cases hcall.symm.trans hwrites.thing
    exact ⟨thing, hwrites, by rw [Twin.served, hserve]⟩
  · exact absurd (congrArg Prod.fst hserve) hnot
  · cases hcall.symm.trans hthing
    rcases hthere with hthere | ⟨thing, hcall'⟩
    · rw [hnone] at hthere
      cases hthere
    · exact absurd hcall' (hput thing)

theorem Prepared.there (h : Prepared py registry new registry' call) {twin : Twin}
    (hpresent : ∀ r ∈ registry, (twin.ditto.things.get? (thingId r.code)).isSome) :
    (twin.ditto.things.get? (thingId new.code)).isSome ∨ ∃ thing, call = .putThing (thingId new.code) thing := by
  rcases h.row with ⟨-, -, hput⟩ | ⟨id, r, -, hr, -, hcode⟩
  · exact .inr hput
  · exact .inl (hcode ▸ hpresent r (List.mem_of_getElem? hr))

theorem Prepared.codes (h : Prepared py registry new registry' call) (hcodes : (registry.map Registered.code).Nodup) :
    (registry'.map Registered.code).Nodup := by
  rcases h.row with ⟨rfl, hfree, -⟩ | ⟨id, r, rfl, hr, -, hcode⟩
  · rw [List.map_append]
    refine hcodes.append (List.nodup_singleton _) ?_
    intro code hold hnew
    obtain ⟨r, hr, rfl⟩ := List.mem_map.mp hold
    exact hfree r hr (List.mem_singleton.mp hnew)
  · have hsame : (registry.set id new).map Registered.code = registry.map Registered.code := by
      obtain ⟨hlt, rfl⟩ := List.getElem?_eq_some_iff.mp hr
      have hlt' : id < (registry.map Registered.code).length := by simpa using hlt
      have hold : (registry.map Registered.code)[id] = new.code := (List.getElem_map ..).trans hcode
      rw [List.map_set, ← hold]
      exact List.set_getElem_self hlt'
    rw [hsame]
    exact hcodes

theorem Prepared.mem (h : Prepared py registry new registry' call) {r : Registered P D} (hr : r ∈ registry') :
    r ∈ registry ∨ r = new := by
  rcases h.row with ⟨rfl, -, -⟩ | ⟨id, r', rfl, -, -, -⟩
  · simpa using hr
  · exact List.mem_or_eq_of_mem_set hr

theorem Prepared.new_retired (h : Prepared py registry new registry' call) (hretired : new.retired = true) :
    call = .setPolicyId (thingId new.code) retiredPolicyId := by
  cases h with
  | create stored place hfree => cases hretired
  | update id r stored hr hactive hcode hcomponents => cases hactive.symm.trans hretired
  | retire id r hr hactive => rfl
  | addComponent id r c hr hactive => cases hactive.symm.trans hretired

/-- What is asked of the store on the way keeps all that does not depend on the registry. -/
theorem Sound.asked {w : World P D} (h : Sound w) {fate : Nat → Fate} {sync : Remote} (hasks : Asks fate call sync)
    (hallowed : call.Allowed) : Sound { w with twin := (sync w.twin).2 } where
  governed := hasks.governed hallowed h.governed
  codes := h.codes
  present r hr := hasks.present (h.present r hr)
  retired r hr hretired := by
    obtain ⟨thing, hthing⟩ := h.retired r hr hretired
    exact ⟨thing, hasks.frozen hallowed hthing⟩

/-- A request that goes through puts its row beside a thing that has been written. -/
theorem Sound.committed {w : World P D} (h : Sound w) {fate : Nat → Fate} {sync : Remote}
    (hprepared : Prepared py w.registry new registry' call) (hasks : Asks fate call sync)
    (hok : (sync w.twin).1 = .ok ()) : Sound ⟨registry', (sync w.twin).2⟩ := by
  have hasked := h.asked hasks hprepared.allowed
  have hrun : sync w.twin = (.ok (), (sync w.twin).2) := Prod.ext hok rfl
  obtain ⟨between, ⟨hthings, hgoverned⟩, htwin, hnot⟩ := hasks.ok hrun
  have hpresent : ∀ r ∈ w.registry, (between.ditto.things.get? (thingId r.code)).isSome := hthings ▸ h.present
  have hthere := hprepared.there hpresent
  obtain ⟨thing, hwrites, hset⟩ := Twin.served_writes hprepared.thing hthere hnot
  have hnew : (sync w.twin).2.ditto.things.get? (thingId new.code) = some thing := by
    rw [htwin, hset]
    exact (Dict.get?_set ..).trans (if_pos rfl)
  refine ⟨hasked.governed, hprepared.codes h.codes, fun r hr => ?_, fun r hr hretired => ?_⟩
  · rcases hprepared.mem hr with hold | rfl
    · exact hasked.present r hold
    · exact Option.isSome_iff_exists.mpr ⟨thing, hnew⟩
  · rcases hprepared.mem hr with hold | rfl
    · exact hasked.retired r hold hretired
    · refine ⟨thing, hasked.governed, hnew, ?_⟩
      have hcall := hprepared.new_retired hretired
      subst hcall
      cases hwrites with
      | bind hthing hpolicy =>
        rw [ReadOnly, Document.value_cons, Document.members, Dict.get?_set, if_pos rfl]
        rfl

theorem sound_empty : Sound (World.empty : World P D) where
  governed := {
    known := fun _ p hp => nomatch (show none = some p from hp)
    ready := fun hready => nomatch (show false = true from hready)
    bound := fun _ thing hthing => nomatch (show none = some thing from hthing) }
  codes := List.nodup_nil
  present := fun r hr => nomatch (show r ∈ [] from hr)
  retired := fun r hr => nomatch (show r ∈ [] from hr)

theorem Sound.step {w : World P D} (h : Sound w) (e : Event P D) : Sound (w.step py e) := by
  cases e with
  | request q fate commits =>
    rcases World.serve_cases py w q fate commits with hsame | ⟨new, registry', call, sync, hprepared, hasks, hcase⟩
    · rw [World.step, hsame]
      exact h
    · rcases hcase with ⟨hfailed, -⟩ | ⟨hdone, hok⟩
      · rw [World.step, hfailed]
        exact h.asked hasks hprepared.allowed
      · rw [World.step, hdone]
        exact h.committed hprepared hasks hok
  | patch thing feature properties fate =>
    have hasks : Asks (fun _ => fate) _ (request fate (.mergeThing thing (featurePatch feature properties))) :=
      ⟨0, .inl rfl⟩
    exact h.asked hasks (featurePatch_allowed thing feature properties)
  | restart =>
    exact ⟨⟨h.governed.known, nofun, h.governed.bound⟩, h.codes, h.present, fun r hr hretired => by
      obtain ⟨thing, ⟨hgoverned, hthing⟩⟩ := h.retired r hr hretired
      exact ⟨thing, ⟨hgoverned.known, nofun, hgoverned.bound⟩, hthing⟩⟩

theorem sound_of_run {es : List (Event P D)} {w : World P D} (h : Run (World.Steps py) .empty es w) : Sound w := by
  refine Run.invariant (fun _ => Sound) sound_empty ?_ h
  rintro _ w e _ hw rfl
  exact hw.step e

/-- A row whose thing is read-only stays, and so does the thing. -/
theorem frozen_step {w : World P D} {id : Nat} {r : Registered P D} {thing : Document} (hr : w.registry[id]? = some r)
    (h : Frozen (thingId r.code) thing w.twin) (e : Event P D) :
    (w.step py e).registry[id]? = some r ∧ Frozen (thingId r.code) thing (w.step py e).twin := by
  cases e with
  | request q fate commits =>
    rcases World.serve_cases py w q fate commits with hsame | ⟨new, registry', call, sync, hprepared, hasks, hcase⟩
    · rw [World.step, hsame]
      exact ⟨hr, h⟩
    · have hfrozen := hasks.frozen hprepared.allowed h
      rcases hcase with ⟨hfailed, -⟩ | ⟨hdone, hok⟩
      · rw [World.step, hfailed]
        exact ⟨hr, hfrozen⟩
      · rw [World.step, hdone]
        refine ⟨?_, hfrozen⟩
        rcases hprepared.row with ⟨rfl, -, -⟩ | ⟨id', r', rfl, hr', -, hcode⟩
        · exact List.getElem?_append_left (List.getElem?_eq_some_iff.mp hr).1 |>.trans hr
        · by_cases hid : id' = id
          · subst hid
            cases hr.symm.trans hr'
            have hcall : call.thing = some (thingId r.code) := hcode ▸ hprepared.thing
            have hrun : sync w.twin = (.ok (), (sync w.twin).2) := Prod.ext hok rfl
            exact absurd hrun (hasks.fails hcall h)
          · exact (List.getElem?_set_ne hid).trans hr
  | patch thing' feature properties fate =>
    have hasks : Asks (fun _ => fate) _ (request fate (.mergeThing thing' (featurePatch feature properties))) :=
      ⟨0, .inl rfl⟩
    exact ⟨hr, hasks.frozen (featurePatch_allowed thing' feature properties) h⟩
  | restart => exact ⟨hr, ⟨h.1.known, nofun, h.1.bound⟩, h.2⟩

/-! ## Runs in which no answer is lost -/

/-- What the thing of a row says. -/
structure Reflects (py : Texts P D) (r : Registered P D) (thing : Document) : Prop where
  policy : thing.value ["policyId"] = .str (if r.retired then retiredPolicyId else activePolicyId)
  attributes : ∀ k, thing.value ["attributes", k] = (attributes py r.stored.asset r.place).value [k]
  status : thing.value ["features", "state", "properties", "status"] = .str r.stored.asset.status
  components : ∀ code, thing.value ["features", "components", "properties", code] ≠ .null ↔
    ∃ c ∈ r.stored.components, c.code = code

/-- The answers of the store come back, and the registry commits. -/
def Event.Clean : Event P D → Prop
  | .request _ fate commits => (∀ n, fate n ≠ .lost) ∧ commits = true
  | _ => True

theorem nodup_attributes (asset : Asset D) (place : Place) :
    ((attributes py asset place).members.map Prod.fst).Nodup := by
  simp [attributes, Document.members]

/-- An attribute is no object, and which attributes there are does not depend on the asset. -/
theorem attributes_cases (py : Texts P D) (asset : Asset D) (place : Place) (k : String) :
    (∃ v, (attributes py asset place).members.get? k = some v ∧ ∀ patch, v ≠ .obj patch) ∨
    ∀ (asset' : Asset D) (place' : Place), (attributes py asset' place').members.get? k = none := by
  have hnot (s : Option String) (patch : List (String × Document)) : orNull s ≠ .obj patch := by
    cases s <;> simp [orNull]
  cases hv : (attributes py asset place).members.get? k with
  | none =>
    right
    intro asset' place'
    refine Dict.get?_eq_none fun hmem => ?_
    exact Dict.mem_keys_iff.mp (show k ∈ (attributes py asset place).members.map Prod.fst from hmem) hv
  | some v =>
    left
    refine ⟨v, rfl, fun patch hobj => ?_⟩
    have hmem := Dict.mem_of_get? hv
    subst hobj
    simp [attributes, Document.members, Ne.symm (hnot _ patch)] at hmem

theorem value_attributes_newThing (asset : Asset D) (place : Place) (components : List (Component P)) (k : String) :
    (newThing py asset place components).value ["attributes", k] = (attributes py asset place).value [k] :=
  Document.value_cons ..

theorem reflects_newThing (stored : Stored P D) (place : Place) :
    Reflects py ⟨stored, place, false⟩ (newThing py stored.asset place stored.components) where
  policy := rfl
  attributes := value_attributes_newThing stored.asset place stored.components
  status := rfl
  components code := by
    have hvalue : (newThing py stored.asset place stored.components).value ["features", "components", "properties", code] =
        (Dict.get? (stored.components.map fun c => (c.code, noHealth)) code).getD .null := by
      have hat : (newThing py stored.asset place stored.components).value ["features", "components", "properties", code] =
          (Document.obj (stored.components.map fun c => (c.code, noHealth))).value [code] := rfl
      rw [hat, Document.value_cons]
      rfl
    rw [hvalue]
    cases hget : Dict.get? (stored.components.map fun c => (c.code, noHealth)) code with
    | none =>
      refine iff_of_false (fun hne => hne rfl) ?_
      rintro ⟨c, hc, rfl⟩
      exact Dict.mem_keys_iff.mp (List.mem_map_of_mem (List.mem_map_of_mem hc)) hget
    | some v =>
      obtain ⟨c, hc, heq⟩ := List.mem_map.mp (Dict.mem_of_get? hget)
      cases heq
      exact iff_of_true (by simp [noHealth]) ⟨c, hc, rfl⟩

theorem Reflects.update {r : Registered P D} {thing : Document} (h : Reflects py r thing) {stored : Stored P D}
    (hcomponents : stored.components = r.stored.components) :
    Reflects py { r with stored } (thing.merge (updatePatch py stored.asset r.place)) where
  policy := by
    rw [Call.policy_merge (updatePatch_allowed stored.asset r.place "")]
    exact h.policy
  attributes k := by
    have hdistinct : (updatePatch py stored.asset r.place).Distinct ["attributes", k] :=
      .cons (by simp) rfl ⟨nodup_attributes stored.asset r.place, fun v _ => v.distinct_nil⟩
    have hpatched : (updatePatch py stored.asset r.place).patched ["attributes", k] =
        (Assets.attributes py stored.asset r.place).members.get? k := by
      show ((Assets.attributes py stored.asset r.place).members.get? k).bind (fun v => v.patched []) = _
      cases (Assets.attributes py stored.asset r.place).members.get? k with
      | none => rfl
      | some v => cases v <;> rfl
    rw [Document.value_merge hdistinct, hpatched, h.attributes k, Document.value_cons, Document.value_cons]
    rcases attributes_cases py stored.asset r.place k with ⟨v, hv, hscalar⟩ | hnone
    · rw [hv, Option.map_some, Option.getD_some, Document.merge_of_not_obj hscalar]
      rfl
    · rw [hnone, hnone]
      rfl
  status := by
    have hdistinct : (updatePatch py stored.asset r.place).Distinct ["features", "state", "properties", "status"] :=
      .cons (by simp) rfl (.cons (by simp) rfl (.cons (by simp) rfl (.cons (by simp) rfl (Document.distinct_nil _))))
    rw [Document.value_merge hdistinct]
    rfl
  components code := by
    have hdistinct : (updatePatch py stored.asset r.place).Distinct ["features", "components", "properties", code] :=
      .cons (by simp) rfl (.stop (by simp) rfl)
    rw [Document.value_merge_of_none hdistinct rfl, h.components code, hcomponents]

theorem Reflects.retire {r : Registered P D} {thing : Document} (h : Reflects py r thing) :
    Reflects py { r with retired := true } (.obj (thing.members.set "policyId" (.str retiredPolicyId))) := by
  have hother (k : String) (hk : k ≠ "policyId") (path : List String) :
      (Document.obj (thing.members.set "policyId" (.str retiredPolicyId))).value (k :: path) = thing.value (k :: path) := by
    rw [Document.value_cons, Document.value_cons, Document.members, Dict.get?_set, if_neg (Ne.symm hk)]
  refine ⟨?_, fun k => ?_, ?_, fun code => ?_⟩
  · rw [Document.value_cons, Document.members, Dict.get?_set, if_pos rfl]
    rfl
  · rw [hother "attributes" (by decide)]
    exact h.attributes k
  · rw [hother "features" (by decide)]
    exact h.status
  · rw [hother "features" (by decide)]
    exact h.components code

theorem Reflects.addComponent {r : Registered P D} {thing : Document} (h : Reflects py r thing) (c : Component P) :
    Reflects py { r with stored := { r.stored with components := r.stored.components ++ [c] } }
      (thing.merge (componentPatch c.code)) where
  policy := by
    rw [Call.policy_merge (componentPatch_allowed c.code "")]
    exact h.policy
  attributes k := by
    have hdistinct : (componentPatch c.code).Distinct ["attributes", k] :=
      .stop (by simp) rfl
    rw [Document.value_merge_of_none hdistinct rfl]
    exact h.attributes k
  status := by
    have hdistinct : (componentPatch c.code).Distinct ["features", "state", "properties", "status"] :=
      .cons (by simp) rfl (.stop (by simp) rfl)
    rw [Document.value_merge_of_none hdistinct rfl]
    exact h.status
  components code := by
    have hdistinct : (componentPatch c.code).Distinct ["features", "components", "properties", code] :=
      .cons (by simp) rfl (.cons (by simp) rfl (.cons (by simp) rfl ⟨by simp, fun v _ => v.distinct_nil⟩))
    have hpatched : (componentPatch c.code).patched ["features", "components", "properties", code] =
        if c.code = code then some noHealth else none := by
      show (Dict.get? [(c.code, noHealth)] code).bind (fun v => v.patched []) = _
      rw [Dict.get?_cons]
      split <;> rfl
    rw [Document.value_merge hdistinct, hpatched]
    by_cases hcode : c.code = code
    · rw [if_pos hcode]
      exact iff_of_true (by simp [noHealth, Document.merge]) ⟨c, by simp, hcode⟩
    · rw [if_neg hcode, Option.map_none, Option.getD_none, h.components code]
      simp [hcode]

/-- Whoever writes telemetry or predictions writes nothing else. -/
theorem Reflects.patch {r : Registered P D} {thing : Document} (h : Reflects py r thing) (feature : Feature)
    (properties : Document) : Reflects py r (thing.merge (featurePatch feature properties)) where
  policy := by
    rw [Call.policy_merge (featurePatch_allowed "" feature properties)]
    exact h.policy
  attributes k := by
    have hdistinct : (featurePatch feature properties).Distinct ["attributes", k] :=
      .stop (by simp) rfl
    rw [Document.value_merge_of_none hdistinct rfl]
    exact h.attributes k
  status := by
    have hnone : Dict.get? [(feature.name, Document.obj [("properties", properties)])] "state" = none := by
      cases feature <;> rfl
    have hdistinct : (featurePatch feature properties).Distinct ["features", "state", "properties", "status"] :=
      .cons (by simp) rfl (.stop (by simp) hnone)
    rw [Document.value_merge_of_none hdistinct (by cases feature <;> rfl)]
    exact h.status
  components code := by
    have hnone : Dict.get? [(feature.name, Document.obj [("properties", properties)])] "components" = none := by
      cases feature <;> rfl
    have hdistinct : (featurePatch feature properties).Distinct ["features", "components", "properties", code] :=
      .cons (by simp) rfl (.stop (by simp) hnone)
    rw [Document.value_merge_of_none hdistinct (by cases feature <;> rfl)]
    exact h.components code

theorem Prepared.reflects (h : Prepared py registry new registry' call) {d : Ditto} {thing : Document}
    (hwrites : call.Writes d (thingId new.code) thing)
    (hold : ∀ r ∈ registry, ∃ thing, d.things.get? (thingId r.code) = some thing ∧ Reflects py r thing) :
    Reflects py new thing := by
  have hthere {id : Nat} {r : Registered P D} (hr : registry[id]? = some r) {old : Document}
      (hget : d.things.get? (thingId r.code) = some old) : Reflects py r old := by
    obtain ⟨thing, hthing, hreflects⟩ := hold r (List.mem_of_getElem? hr)
    cases hget.symm.trans hthing
    exact hreflects
  cases h with
  | create stored place hfree =>
    cases hwrites
    exact reflects_newThing stored place
  | update id r stored hr hactive hcode hcomponents =>
    cases hwrites with
    | merge hget =>
      rw [hcode] at hget
      exact (hthere hr hget).update hcomponents
  | retire id r hr hactive =>
    cases hwrites with
    | bind hget hpolicy => exact (hthere hr hget).retire
  | addComponent id r c hr hactive =>
    cases hwrites with
    | merge hget => exact (hthere hr hget).addComponent c

/-- Every row has a thing that says the same, and every thing has a row. -/
structure Mirrored (py : Texts P D) (w : World P D) : Prop where
  reflected : ∀ r ∈ w.registry, ∃ thing, w.twin.ditto.things.get? (thingId r.code) = some thing ∧ Reflects py r thing
  owned : ∀ id thing, w.twin.ditto.things.get? id = some thing → ∃ r ∈ w.registry, id = thingId r.code

theorem Mirrored.of_things {w : World P D} {twin : Twin} (h : Mirrored py w)
    (hthings : twin.ditto.things = w.twin.ditto.things) : Mirrored py { w with twin } where
  reflected r hr := by
    show ∃ thing, twin.ditto.things.get? (thingId r.code) = some thing ∧ Reflects py r thing
    rw [hthings]
    exact h.reflected r hr
  owned id thing hthing := h.owned id thing (hthings ▸ hthing)

theorem Mirrored.committed {w : World P D} (h : Mirrored py w) (hsound : Sound w) {fate : Nat → Fate} {sync : Remote}
    (hprepared : Prepared py w.registry new registry' call) (hasks : Asks fate call sync)
    (hok : (sync w.twin).1 = .ok ()) : Mirrored py ⟨registry', (sync w.twin).2⟩ := by
  have hrun : sync w.twin = (.ok (), (sync w.twin).2) := Prod.ext hok rfl
  obtain ⟨between, ⟨hthings, -⟩, htwin, hnot⟩ := hasks.ok hrun
  have hpresent : ∀ r ∈ w.registry, (between.ditto.things.get? (thingId r.code)).isSome := hthings ▸ hsound.present
  have hthere := hprepared.there hpresent
  obtain ⟨thing, hwrites, hset⟩ := Twin.served_writes hprepared.thing hthere hnot
  have hafter (id : String) : (sync w.twin).2.ditto.things.get? id =
      if thingId new.code = id then some thing else w.twin.ditto.things.get? id := by
    rw [htwin, hset, hthings]
    exact Dict.get?_set ..
  have hmem : new ∈ registry' := by
    rcases hprepared.row with ⟨rfl, -, -⟩ | ⟨id, r, rfl, hr, -, -⟩
    · simp
    · exact List.mem_set (List.getElem?_eq_some_iff.mp hr).1 new
  have hreflects : Reflects py new thing := by
    refine hprepared.reflects hwrites fun r hr => ?_
    rw [hthings]
    exact h.reflected r hr
  refine ⟨fun r hr => ?_, fun id old hget => ?_⟩
  · show ∃ thing, (sync w.twin).2.ditto.things.get? (thingId r.code) = some thing ∧ Reflects py r thing
    rw [hafter]
    split
    · rename_i hid
      have hsame : r = new :=
        List.inj_on_of_nodup_map (hprepared.codes hsound.codes) hr hmem (thingId_inj hid).symm
      exact ⟨thing, rfl, hsame ▸ hreflects⟩
    · rename_i hid
      rcases hprepared.mem hr with hold | rfl
      · exact h.reflected r hold
      · exact absurd rfl hid
  · have hget' : (if thingId new.code = id then some thing else w.twin.ditto.things.get? id) = some old :=
      (hafter id).symm.trans hget
    split at hget'
    · rename_i hid
      exact ⟨new, hmem, hid.symm⟩
    · rename_i hid
      obtain ⟨r, hr, rfl⟩ := h.owned id old hget'
      refine ⟨r, ?_, rfl⟩
      rcases hprepared.row with ⟨rfl, -, -⟩ | ⟨id', r', rfl, hr', -, hcode⟩
      · exact List.mem_append_left _ hr
      · obtain ⟨k, hk⟩ := List.mem_iff_getElem?.mp hr
        have hne : id' ≠ k := by
          rintro rfl
          cases hk.symm.trans hr'
          exact hid (congrArg thingId hcode.symm)
        exact List.mem_iff_getElem?.mpr ⟨k, (List.getElem?_set_ne hne).trans hk⟩

theorem Mirrored.step {w : World P D} (h : Mirrored py w) (hsound : Sound w) {e : Event P D} (hclean : e.Clean) :
    Mirrored py (w.step py e) := by
  cases e with
  | request q fate commits =>
    obtain ⟨hfate, hcommits⟩ := hclean
    rcases World.serve_cases py w q fate commits with hsame | ⟨new, registry', call, sync, hprepared, hasks, hcase⟩
    · rw [World.step, hsame]
      exact h
    · rcases hcase with ⟨hfailed, hfails⟩ | ⟨hdone, hok⟩
      · obtain ⟨e, he⟩ := hfails hcommits
        have hrun : sync w.twin = (.error e, (sync w.twin).2) := Prod.ext he rfl
        rw [World.step, hfailed]
        exact h.of_things (hasks.error hfate hrun)
      · rw [World.step, hdone]
        exact h.committed hsound hprepared hasks hok
  | patch thing feature properties fate =>
    have hserved : Mirrored py { w with twin := w.twin.served (.mergeThing thing (featurePatch feature properties)) } := by
      rcases w.twin.ditto.serve_cases (.mergeThing thing (featurePatch feature properties)) with ⟨_, _, hput, -⟩ |
        ⟨id, new, hwrites, hserve⟩ | hserve | ⟨hserve, -⟩
      · cases hput
      · have hset : (w.twin.served (.mergeThing thing (featurePatch feature properties))).ditto.things =
            w.twin.ditto.things.set id new := by
          rw [Twin.served, hserve]
        cases hwrites with
        | merge hget =>
          rename_i old
          refine ⟨fun r hr => ?_, fun id' thing' hthing' => ?_⟩
          · obtain ⟨thing', hthing', hreflects⟩ := h.reflected r hr
            show ∃ thing, (w.twin.served _).ditto.things.get? (thingId r.code) = some thing ∧ Reflects py r thing
            rw [hset, Dict.get?_set]
            split
            · rename_i hid
              subst hid
              cases hget.symm.trans hthing'
              exact ⟨_, rfl, hreflects.patch feature properties⟩
            · exact ⟨thing', hthing', hreflects⟩
          · have hget' : (w.twin.ditto.things.set thing (old.merge (featurePatch feature properties))).get? id' = some thing' :=
              (congrArg (Dict.get? · id') hset).symm.trans hthing'
            rw [Dict.get?_set] at hget'
            split at hget'
            · rename_i hid
              subst hid
              exact h.owned thing old hget
            · exact h.owned id' thing' hget'
      · exact h.of_things (congrArg (Ditto.things ∘ Prod.snd) hserve)
      · exact h.of_things (congrArg (Ditto.things ∘ Prod.snd) hserve)
    exact request_keeps (I := fun twin => Mirrored py { w with twin }) h hserved fate
  | restart => exact ⟨h.reflected, h.owned⟩

theorem mirrored_of_run {es : List (Event P D)} {w : World P D}
    (h : Run (Guarded (World.Steps py) fun _ e => e.Clean) .empty es w) : Mirrored py w := by
  have hmirrored : Mirrored py (World.empty : World P D) :=
    ⟨fun r hr => (List.not_mem_nil hr).elim, fun _ thing hthing => nomatch (show none = some thing from hthing)⟩
  suffices hboth : Sound w ∧ Mirrored py w from hboth.2
  refine Run.invariant (fun _ w => Sound w ∧ Mirrored py w) ⟨sound_empty, hmirrored⟩ ?_ h
  rintro _ w e _ ⟨hsound, hmirrored⟩ ⟨hclean, rfl⟩
  exact ⟨hsound.step e, hmirrored.step hsound hclean⟩

end

def hall : Place := ⟨"line-1", "plant-1"⟩

def newPress : Request Unit Unit :=
  .create "l1" (some hall) ⟨"press-01", "Press", "hydraulic_press", none, none, none, some (), 2, none, none⟩ [] [] none none 1

def answers : Nat → Fate := fun _ => .answered "not allowed"

def tornRetirement : List (Event Unit Unit) :=
  [.request newPress answers true, .request (.retire 0) (fun n => if n = 2 then .lost else answers n) true]

def rename : Event Unit Unit :=
  .request (.update 0 ⟨some (some "Old press"), none, none, none, none, none, none, none, none⟩) answers true

def World.policyIdOf {P D : Type} (w : World P D) (id : Nat) : Option Document :=
  w.registry[id]?.bind fun r => (w.twin.ditto.things.get? (thingId r.code)).map fun thing => thing.value ["policyId"]

end TwinVoice.Assets
