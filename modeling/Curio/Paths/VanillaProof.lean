import Curio.Paths.FileType

/-! `lib/paths/local_prove.go`, `remote_prove.go` and `http_handler.go`: the vanilla proof of a
challenged sector is made on this machine, or asked for at the machines that have the sector. -/

namespace Curio.Paths

structure PostSectorChallenge where
  sealProof : Int
  sectorNumber : Nat
  sealedCID : String
  challenge : List Nat
  update : Bool
  deriving DecidableEq

def PostSectorChallenge.fileTypes (si : PostSectorChallenge) : SectorFileType :=
  if si.update then FileType.update.bit ||| FileType.updateCache.bit
  else FileType.sealed.bit ||| FileType.cache.bit

/-- A byte slice of Go, which may be nil. -/
abbrev Slice := Option (List UInt8)

inductive RemoteFailure where
  | request (message : String)
  | doRequest (message : String)
  | readAll (message : String)
  | status (url : String) (body : List UInt8)
  deriving DecidableEq

inductive VanillaError where
  | pathNotFound
  | acquireSector (message : String)
  | ffi (message : String)
  | contextCancellation (message : String)
  | findingSector (sector : Nat) (message : String)
  | sectorNotFound (failures : List RemoteFailure)
  deriving DecidableEq

structure LocalStore where
  acquireSector : PostSectorChallenge → SectorFileType → Except String SectorPaths
  /-- The proof, or why the context has ended before it. -/
  prove : (cache sealed : String) → PostSectorChallenge → Except String (Except String Slice)

def LocalStore.generateSingleVanillaProof (st : LocalStore) (si : PostSectorChallenge) :
    Except VanillaError Slice :=
  match st.acquireSector si si.fileTypes with
  | .error message => .error (.acquireSector message)
  | .ok src =>
    let (cache, sealedPath) := if si.update then (src.updateCache, src.update)
      else (src.cache, src.sealed)
    if sealedPath = "" ∨ cache = "" then .error .pathNotFound
    else
      match st.prove cache sealedPath si with
      | .error message => .error (.contextCancellation message)
      | .ok (.error message) => .error (.ffi message)
      | .ok (.ok proof) => .ok proof

structure Response where
  status : Nat
  /-- The bytes that arrive, or why the body cannot be read. -/
  body : Except String (List UInt8)

/-- `FetchHandler.generateSingleVanillaProof`: a nil proof is served as an empty body. -/
def FetchHandler.generateSingleVanillaProof (st : LocalStore) (text : VanillaError → List UInt8)
    (si : PostSectorChallenge) : Response :=
  match st.generateSingleVanillaProof si with
  | .error err => ⟨500, .ok (text err)⟩
  | .ok vanilla => ⟨200, .ok (vanilla.getD [])⟩

structure Remote where
  localStore : LocalStore
  /-- `StorageFindSector`: the base URLs of each storage that has the files. -/
  storageFindSector : PostSectorChallenge → SectorFileType → Except String (List (List String))
  post : (url : String) → PostSectorChallenge → Except RemoteFailure Response

/-- The loop over the URLs, with the errors so far. -/
def Remote.askAll (r : Remote) (sinfo : PostSectorChallenge) (merr : List RemoteFailure) :
    List String → Except VanillaError Slice
  | [] => .error (.sectorNotFound merr)
  | u :: rest =>
    let url := u ++ "/vanilla/single"
    match r.post url sinfo with
    | .error failure => r.askAll sinfo (merr ++ [failure]) rest
    | .ok resp =>
      if resp.status ≠ 200 then
        if resp.status = 404 then r.askAll sinfo merr rest
        else
          match resp.body with
          | .error message => r.askAll sinfo (merr ++ [.readAll message]) rest
          | .ok body => r.askAll sinfo (merr ++ [.status url body]) rest
      else
        match resp.body with
        | .error message => r.askAll sinfo (merr ++ [.readAll message]) rest
        -- `io.ReadAll` returns no nil slice
        | .ok body => .ok (some body)

def Remote.generateSingleVanillaProof (r : Remote) (sinfo : PostSectorChallenge) :
    Except VanillaError Slice :=
  match r.localStore.generateSingleVanillaProof sinfo with
  | .error .pathNotFound =>
    match r.storageFindSector sinfo sinfo.fileTypes with
    | .error message => .error (.findingSector sinfo.sectorNumber message)
    | .ok si => r.askAll sinfo [] si.flatten
  | answer => answer

/-- What an endpoint answers: where the body is cut, its first bytes arrive and then an error. -/
structure Delivery where
  status : Nat
  body : List UInt8
  cut : Option Nat
  /-- The `Close` of the body fails. -/
  closeErr : Bool

def Delivery.arrived (resp : Delivery) : List UInt8 := resp.cut.elim resp.body resp.body.take

abbrev Endpoint := String × Except RemoteFailure Delivery

/-- The loop of the next two functions, which only log an error of `io.ReadAll`. -/
def askFirst (path : String) (merr : List RemoteFailure) :
    List Endpoint → Except VanillaError Slice
  | [] => .error (.sectorNotFound merr)
  | (_, .error failure) :: rest => askFirst path (merr ++ [failure]) rest
  | (u, .ok resp) :: rest =>
    if resp.status ≠ 200 then
      if resp.status = 404 then askFirst path merr rest
      else askFirst path (merr ++ [.status (u ++ path) resp.arrived]) rest
    else .ok (some resp.arrived)

def generatePoRepVanillaProof := askFirst "/vanilla/porep" []

def readSnapVanillaProof := askFirst "/vanilla/snap" []

/-- `ReadMinCacheInto` for a sector that is not here: what is in the writer, and how it ends. -/
def readMinCacheInto (w : List UInt8) : List Endpoint → List UInt8 × Except VanillaError Unit
  | [] => (w, .error (.sectorNotFound []))
  | (_, .error _) :: rest => readMinCacheInto w rest
  | (_, .ok resp) :: rest =>
    if resp.status ≠ 200 ∧ resp.status ≠ 206 then readMinCacheInto w rest
    else if resp.closeErr then readMinCacheInto (w ++ resp.arrived) rest
    else if resp.cut.isSome then readMinCacheInto (w ++ resp.arrived) rest
    else (w ++ resp.arrived, .ok ())

namespace Endpoint

def gives (statuses : List Nat) : Endpoint → Option Delivery
  | (_, .ok resp) => if resp.status ∈ statuses then some resp else none
  | (_, .error _) => none

def readable (e : Endpoint) : Option Delivery := e.gives [200, 206]

def complete (e : Endpoint) : Option Delivery :=
  e.readable.filter fun resp => resp.cut.isNone ∧ ¬resp.closeErr

def sent (e : Endpoint) : List UInt8 := (e.readable.map Delivery.arrived).getD []

/-- The same behaviour with another body. -/
def sending (body : List UInt8) : Endpoint → Endpoint
  | (u, answer) => (u, answer.map fun resp => { resp with body })

end Endpoint

variable {endpoints : List Endpoint} {statuses : List Nat}

/-- An endpoint has delivered the bytes as its complete body. -/
def Delivered (statuses : List Nat) (endpoints : List Endpoint) (bytes : List UInt8) : Prop :=
  ∃ e ∈ endpoints, ∃ resp ∈ e.gives statuses, resp.cut = none ∧ resp.body = bytes

/-- A success is a delivered body, and without one there is an error. -/
def Exact (delivered : List UInt8 → Prop) (result : Except VanillaError Slice) : Prop :=
  (∀ proof, result = .ok proof → ∃ body, proof = some body ∧ delivered body) ∧
    ((∀ body, ¬delivered body) → ∃ err, result = .error err)

/-- What `ReadMinCacheInto` leaves in an empty writer where it succeeds. -/
def written (endpoints : List Endpoint) : Except VanillaError Slice :=
  (readMinCacheInto [] endpoints).2.map fun _ => some (readMinCacheInto [] endpoints).1

open Endpoint

/-- The first endpoint that answers with 200 is not cut, and of those before the first one that is
read to its end and closed none sends a byte. -/
def Clean (endpoints : List Endpoint) : Prop :=
  (∀ resp ∈ endpoints.findSome? (·.gives [200]), resp.cut = none) ∧
    ((endpoints.findSome? complete).isSome →
      ∀ e ∈ endpoints.takeWhile (·.complete.isNone), ∀ resp ∈ e.readable, resp.cut = some 0)

theorem exact_of_ok {delivered : List UInt8 → Prop} {result : Except VanillaError Slice}
    (ok : ∀ proof, result = .ok proof → ∃ body, proof = some body ∧ delivered body) :
    Exact delivered result := by
  refine ⟨ok, fun none => ?_⟩
  cases result with
  | error err => exact ⟨err, rfl⟩
  | ok proof =>
    obtain ⟨body, -, here⟩ := ok proof rfl
    exact absurd here (none body)

theorem askAll_ok {r : Remote} {sinfo : PostSectorChallenge} {merr : List RemoteFailure}
    {urls : List String} {proof : Slice} (asked : r.askAll sinfo merr urls = .ok proof) :
    ∃ u ∈ urls, ∃ resp, r.post (u ++ "/vanilla/single") sinfo = .ok resp ∧ resp.status = 200 ∧
      ∃ body, resp.body = .ok body ∧ proof = some body := by
  induction urls generalizing merr with
  | nil => cases asked
  | cons u rest ih => grind [Remote.askAll]

theorem askFirst_ok {path : String} {merr : List RemoteFailure} {proof : Slice} :
    askFirst path merr endpoints = .ok proof ↔
      ∃ resp, endpoints.findSome? (·.gives [200]) = some resp ∧ some resp.arrived = proof := by
  induction endpoints generalizing merr with
  | nil => simp [askFirst]
  | cons e rest ih =>
    obtain ⟨u, failure | resp⟩ := e
    · simp [askFirst, ih, gives]
    · by_cases served : resp.status = 200
      · simp [askFirst, gives, served]
      · by_cases absent : resp.status = 404 <;> simp [askFirst, ih, gives, served, absent]

theorem readMinCacheInto_cons {w : List UInt8} {e : Endpoint} :
    readMinCacheInto w (e :: endpoints) = match e.complete with
      | some resp => (w ++ resp.body, .ok ())
      | none => readMinCacheInto (w ++ e.sent) endpoints := by
  obtain ⟨u, failure | resp⟩ := e
  · simp [readMinCacheInto, complete, sent, readable, gives]
  · by_cases served : resp.status = 200 ∨ resp.status = 206 <;> cases cut : resp.cut <;>
      grind [readMinCacheInto, complete, sent, readable, gives, Delivery.arrived]

theorem readMinCacheInto_ok {w out : List UInt8} :
    readMinCacheInto w endpoints = (out, .ok ()) ↔
      ∃ resp, endpoints.findSome? complete = some resp ∧
        w ++ (endpoints.takeWhile (·.complete.isNone)).flatMap sent ++ resp.body = out := by
  induction endpoints generalizing w with
  | nil => simp [readMinCacheInto]
  | cons e rest ih =>
    rw [readMinCacheInto_cons, List.findSome?_cons, List.takeWhile_cons]
    cases e.complete with
    | none => simp [ih]
    | some resp => simp

theorem written_ok {proof : Slice} :
    written endpoints = .ok proof ↔ ∃ resp, endpoints.findSome? complete = some resp ∧
      some ((endpoints.takeWhile (·.complete.isNone)).flatMap sent ++ resp.body) = proof := by
  have ok (w : List UInt8) : readMinCacheInto [] endpoints = (w, .ok ()) ↔ _ := readMinCacheInto_ok
  rcases ended : readMinCacheInto [] endpoints with ⟨w, err | ⟨⟩⟩
  · simp_all [written, Except.map]
  · have here := (ok w).mp ended
    simp only [written, ended, Except.map]
    grind

section Sending

variable (body : List UInt8)

theorem gives_sending (statuses : List Nat) (e : Endpoint) :
    (e.sending body).gives statuses = (e.gives statuses).map fun resp => { resp with body } := by
  obtain ⟨u, failure | resp⟩ := e
  · rfl
  · by_cases served : resp.status ∈ statuses <;> simp [sending, gives, Except.map, served]

theorem complete_sending (e : Endpoint) :
    (e.sending body).complete = e.complete.map fun resp => { resp with body } := by
  rw [complete, complete, readable, readable, gives_sending]
  cases e.gives [200, 206] with
  | none => rfl
  | some resp => simp [Option.filter]

theorem findSome_sending {given : Endpoint → Option Delivery}
    (keeps : ∀ e, given (e.sending body) = (given e).map fun resp => { resp with body })
    (endpoints : List Endpoint) : (endpoints.map (sending body)).findSome? given =
      (endpoints.findSome? given).map fun resp => { resp with body } := by
  rw [List.findSome?_map, List.map_findSome?]
  exact congrArg (endpoints.findSome? ·) (funext keeps)

theorem takeWhile_sending : (endpoints.map (sending body)).takeWhile (·.complete.isNone) =
    (endpoints.takeWhile (·.complete.isNone)).map (sending body) := by
  rw [List.takeWhile_map]
  refine congrArg (fun p => (endpoints.takeWhile p).map (sending body)) (funext fun e => ?_)
  rw [Function.comp_apply, complete_sending, Option.isNone_map]

theorem clean_sending : Clean (endpoints.map (sending body)) ↔ Clean endpoints := by
  simp only [Clean, findSome_sending body (gives_sending body _),
    findSome_sending body (complete_sending body), takeWhile_sending, readable, Option.isSome_map,
    List.forall_mem_map, gives_sending, Option.mem_map, forall_exists_index, and_imp,
    forall_apply_eq_imp_iff₂]

theorem delivered_sending {bytes : List UInt8}
    (delivered : Delivered statuses (endpoints.map (sending body)) bytes) : bytes = body := by
  obtain ⟨e, member, resp, given, -, rfl⟩ := delivered
  obtain ⟨source, -, rfl⟩ := List.mem_map.mp member
  rw [gives_sending] at given
  obtain ⟨before, -, rfl⟩ := Option.mem_map.mp given
  rfl

end Sending

theorem Clean.exact (clean : Clean endpoints) :
    Exact (Delivered [200] endpoints) (generatePoRepVanillaProof endpoints) ∧
      Exact (Delivered [200] endpoints) (readSnapVanillaProof endpoints) ∧
      Exact (Delivered [200, 206] endpoints) (written endpoints) := by
  have first {proof : Slice} {path : String} (ok : askFirst path [] endpoints = .ok proof) :
      ∃ body, proof = some body ∧ Delivered [200] endpoints body := by
    obtain ⟨resp, found, rfl⟩ := askFirst_ok.mp ok
    obtain ⟨e, member, given⟩ := List.exists_of_findSome?_eq_some found
    have whole := clean.1 resp found
    refine ⟨_, rfl, e, member, resp, given, whole, ?_⟩
    rw [Delivery.arrived, whole]
    rfl
  refine ⟨exact_of_ok fun _ => first, exact_of_ok fun _ => first, exact_of_ok fun proof ok => ?_⟩
  obtain ⟨resp, found, rfl⟩ := written_ok.mp ok
  obtain ⟨e, member, given⟩ := List.exists_of_findSome?_eq_some found
  obtain ⟨readable, ends⟩ := Option.filter_eq_some_iff.mp given
  have nothing : (endpoints.takeWhile (·.complete.isNone)).flatMap sent = [] := by
    refine List.flatMap_eq_nil_iff.mpr fun e before => ?_
    have silent := clean.2 (by rw [found]; rfl) e before
    rw [sent]
    cases given : e.readable with
    | none => rfl
    | some resp =>
      rw [Option.map_some, Option.getD_some, Delivery.arrived, silent resp given]
      rfl
  rw [nothing]
  exact ⟨_, rfl, e, member, resp, readable, by simpa using (of_decide_eq_true ends).1, rfl⟩

/-- What the four functions deliver is one endpoint's complete body, whatever the bodies are, and
they fail without one, exactly if the endpoints behave cleanly. -/
theorem fallback_exact_iff (r : Remote) (sinfo : PostSectorChallenge) (urls : List String)
    (endpoints : List Endpoint) :
    (Exact (fun body => ∃ u ∈ urls, ∃ resp, r.post (u ++ "/vanilla/single") sinfo = .ok resp ∧
        resp.status = 200 ∧ resp.body = .ok body) (r.askAll sinfo [] urls) ∧
      ∀ others : List Endpoint, others.map (sending []) = endpoints.map (sending []) →
        Exact (Delivered [200] others) (generatePoRepVanillaProof others) ∧
          Exact (Delivered [200] others) (readSnapVanillaProof others) ∧
          Exact (Delivered [200, 206] others) (written others)) ↔
    Clean endpoints := by
  constructor
  · rintro ⟨-, exact⟩
    have filled (body : List UInt8) := exact (endpoints.map (sending body)) (by
      rw [List.map_map]
      exact List.map_congr_left fun ⟨u, answer⟩ _ => by cases answer <;> rfl)
    refine ⟨fun resp found => ?_, fun some e before resp given => ?_⟩
    · -- a body that is longer than what arrives
      by_contra cut
      obtain ⟨k, cut⟩ := Option.ne_none_iff_exists'.mp cut
      have first := findSome_sending (List.replicate (k + 1) 0) (gives_sending _ [200]) endpoints
      rw [Option.mem_def.mp found] at first
      obtain ⟨body, same, delivered⟩ :=
        (filled (List.replicate (k + 1) 0)).1.1 _ (askFirst_ok.mpr ⟨_, first, rfl⟩)
      have length := congrArg List.length (Option.some.inj same)
      rw [delivered_sending _ delivered] at length
      simp [Delivery.arrived, cut] at length
    · -- a body of one byte, in front of which nothing may be
      obtain ⟨last, found⟩ := Option.isSome_iff_exists.mp some
      have ends := findSome_sending [0] (complete_sending [0]) endpoints
      rw [found] at ends
      obtain ⟨body, same, delivered⟩ := (filled [0]).2.2.1 _ (written_ok.mpr ⟨_, ends, rfl⟩)
      rw [delivered_sending _ delivered, takeWhile_sending] at same
      have nothing := List.append_left_eq_self.mp (Option.some.inj same)
      have silent := List.flatMap_eq_nil_iff.mp nothing _ (List.mem_map_of_mem before)
      rw [sent, readable, gives_sending, show e.gives [200, 206] = _ from given] at silent
      rcases cut : resp.cut with _ | _ | k
      · simp [Delivery.arrived, cut] at silent
      · rfl
      · simp [Delivery.arrived, cut] at silent
  · intro clean
    refine ⟨exact_of_ok fun proof ok => ?_, fun others same => ?_⟩
    · obtain ⟨u, member, resp, posted, served, body, whole, rfl⟩ := askAll_ok ok
      exact ⟨body, rfl, u, member, resp, posted, served, whole⟩
    · rw [← clean_sending [], ← same, clean_sending] at clean
      exact clean.exact

/-- The first body is cut after a byte: it is returned as a proof, and left before the second. -/
theorem cut_body_returned : ∃ endpoints : List Endpoint,
    generatePoRepVanillaProof endpoints = .ok (some [1]) ∧
      readSnapVanillaProof endpoints = .ok (some [1]) ∧ written endpoints = .ok (some [1, 3]) ∧
      ∀ bytes, Delivered [200, 206] endpoints bytes ↔ bytes = [3] :=
  ⟨[("a", .ok ⟨200, [1, 2], some 1, false⟩), ("b", .ok ⟨200, [3], none, false⟩)], rfl, rfl, rfl,
    fun bytes => by simp [Delivered, gives, eq_comm]⟩

end Curio.Paths
