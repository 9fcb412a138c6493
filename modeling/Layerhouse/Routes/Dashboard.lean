/-
This file is the dashboard's reads of manifests: the `GET` part of
`repository_dispatch_result` in `routes/dashboard_api.rs`. The path is the
wildcard tail as axum hands it over, decoded once. The permission is checked on
the name as it stands in that path, and each of the three handlers decodes the
name again before it reads.

The file proves when the two names are the same: exactly when the second decoding
leaves the name as it is, that is, when the name holds no escape that the server's
decoder reads, or its escapes spell bytes that are not UTF-8.
-/

import Layerhouse.Auth.Policies
import Layerhouse.Routes.Paths

namespace Layerhouse

inductive DashboardHandler where
  | listManifests
  | getManifest (digest : String)
  | getRawManifest (digest : String)
deriving DecidableEq

/-- The repository whose manifests a handler reads when it is called with a name. -/
def DashboardHandler.readRepository (_ : DashboardHandler) (name : String) : String :=
  percentDecode name

/-- What a `GET` of an authenticated caller comes to. -/
inductive DashboardOutcome where
  | getRepository (path : String)
  | failed (error : LayerhouseError)
  | reads (checked : String) (handler : DashboardHandler) (repository : String)
deriving DecidableEq

/-- `path.split('/')`. -/
def pathSegments (path : String) : List String :=
  (path.toList.splitOn '/').map String.ofList

/-- The handler for the segments after the last `manifests`; `query` is what the parsing of the
query string of a listing answers. -/
def manifestHandler (query : Except LayerhouseError Unit) :
    List String → Except LayerhouseError DashboardHandler
  | [] => query.map fun _ => .listManifests
  | [digest] => .ok (.getManifest digest)
  | [digest, "raw"] => .ok (.getRawManifest digest)
  | _ => .error (.unsupported "method not allowed")

/-- `repository_dispatch_result` on a `GET` with authorization enabled. -/
def repositoryDispatchGet (service : AuthService) (data : StateMachineData)
    (identity : AuthIdentity) (query : Except LayerhouseError Unit) (path : String) :
    DashboardOutcome :=
  let path := trimEndSlashes path
  match Text.rsplitOnce ["manifests"] (pathSegments path) with
  | none => .getRepository path
  | some (before, tail) =>
    let name := "/".intercalate before
    match checkPermission service data identity name .pull with
    | .error error => .failed error
    | .ok _ =>
      match manifestHandler query tail with
      | .error error => .failed error
      | .ok handler => .reads name handler (handler.readRepository name)

/-! ### The name that is checked and the name that is read -/

/-- The second decoding leaves the name as it is. -/
def DecodedOnce (name : String) : Prop :=
  Escapes.Escaped 0x25 fromStrRadix (Text.utf8 name.toList) →
    Text.fromUtf8 (unescape fromStrRadix name) = none

/-- The segments before the last `manifests` of a path that asks for manifests spell a name that
is not decoded a second time. -/
def NameDecodedOnce (path : String) : Prop :=
  ∀ before tail, pathSegments (trimEndSlashes path) = before ++ "manifests" :: tail →
    "manifests" ∉ tail →
      (tail = [] ∨ ∃ digest, tail = [digest] ∨ tail = [digest, "raw"]) →
        DecodedOnce ("/".intercalate before)

theorem manifestHandler_eq_ok {query : Except LayerhouseError Unit} {tail : List String}
    {handler : DashboardHandler} (found : manifestHandler query tail = .ok handler) :
    tail = [] ∨ ∃ digest, tail = [digest] ∨ tail = [digest, "raw"] := by
  unfold manifestHandler at found
  split at found
  · exact Or.inl rfl
  · rename_i digest
    exact Or.inr ⟨digest, Or.inl rfl⟩
  · rename_i digest
    exact Or.inr ⟨digest, Or.inr rfl⟩
  · cases found

theorem exists_manifestHandler {tail : List String}
    (asked : tail = [] ∨ ∃ digest, tail = [digest] ∨ tail = [digest, "raw"]) :
    ∃ handler, manifestHandler (.ok ()) tail = .ok handler := by
  rcases asked with rfl | ⟨digest, rfl | rfl⟩
  · exact ⟨.listManifests, rfl⟩
  · exact ⟨.getManifest digest, rfl⟩
  · exact ⟨.getRawManifest digest, rfl⟩

/-- What is read after which check. -/
theorem repositoryDispatchGet_eq_reads {service : AuthService} {data : StateMachineData}
    {identity : AuthIdentity} {query : Except LayerhouseError Unit} {path checked : String}
    {handler : DashboardHandler} {repository : String} :
    repositoryDispatchGet service data identity query path = .reads checked handler repository ↔
      ∃ before tail access, pathSegments (trimEndSlashes path) = before ++ "manifests" :: tail ∧
        "manifests" ∉ tail ∧ checked = "/".intercalate before ∧
          checkPermission service data identity checked .pull = .ok access ∧
            manifestHandler query tail = .ok handler ∧ repository = percentDecode checked := by
  rw [repositoryDispatchGet]
  cases split : Text.rsplitOnce ["manifests"] (pathSegments (trimEndSlashes path)) with
  | none =>
    simp only [reduceCtorEq, false_iff]
    rintro ⟨before, tail, access, segmentsEq, absent, _⟩
    rw [Text.rsplitOnce_singleton.mpr ⟨segmentsEq, absent⟩] at split
    cases split
  | some halves =>
    obtain ⟨before, tail⟩ := halves
    have found := Text.rsplitOnce_singleton.mp split
    simp only
    constructor
    · intro reads
      split at reads
      · cases reads
      · rename_i access permitted
        split at reads
        · cases reads
        · rename_i handled
          cases reads
          exact ⟨before, tail, access, found.1, found.2, rfl, permitted, handled, rfl⟩
    · rintro ⟨otherBefore, otherTail, access, segmentsEq, absent, rfl, permitted, handled, rfl⟩
      have same := split.symm.trans (Text.rsplitOnce_singleton.mpr ⟨segmentsEq, absent⟩)
      cases same
      simp only [permitted, handled, DashboardHandler.readRepository]

/-- A service whose policies allow whatever the guards let through. -/
def allowingService : AuthService where
  cedar := ⟨fun _ => .ok (), fun _ _ => .ok .allow⟩
  policyForRequest := fun _ _ => .ok ""

/-- The dashboard reads the manifests of the repository that it checked, for every state, policy
and caller, exactly when the second decoding leaves the name in the path as it is. -/
theorem dashboard_reads_checked_repository_iff (path : String) :
    (∀ service data identity query checked handler repository,
      repositoryDispatchGet service data identity query path =
        .reads checked handler repository → checked = repository) ↔ NameDecodedOnce path := by
  constructor
  · intro agrees before tail segmentsEq absent asked
    obtain ⟨handler, handled⟩ := exists_manifestHandler asked
    obtain ⟨access, permitted⟩ := checkPermission_publicRepository allowingService
      (sampleSession "alice") ("/".intercalate before)
    have reads := repositoryDispatchGet_eq_reads.mpr
      ⟨before, tail, access, segmentsEq, absent, rfl, permitted, handled, rfl⟩
    exact (percentDecode_eq_self_iff _).mp (agrees _ _ _ _ _ _ _ reads).symm
  · intro decodedOnce service data identity query checked handler repository reads
    obtain ⟨before, tail, access, segmentsEq, absent, rfl, _, handled, rfl⟩ :=
      repositoryDispatchGet_eq_reads.mp reads
    have once := decodedOnce before tail segmentsEq absent (manifestHandler_eq_ok handled)
    exact ((percentDecode_eq_self_iff _).mpr once).symm

/-- A path with doubly escaped slashes: the caller is checked on a name outside every personal
namespace and reads a repository that she is denied. -/
theorem dashboard_reads_unchecked_repository :
    ∃ path checked repository,
      axumPath "users%252Fbob%252Fapp/manifests" = some path ∧
      repositoryDispatchGet allowingService StateMachineData.empty (sampleSession "alice") (.ok ())
        path = .reads checked .listManifests repository ∧
      checked ≠ repository ∧
      ¬ ∃ access, checkPermission allowingService StateMachineData.empty (sampleSession "alice")
        repository .pull = .ok access := by
  refine ⟨"users%2Fbob%2Fapp/manifests", "users%2Fbob%2Fapp", "users/bob/app", by decide, rfl,
    by decide, ?_⟩
  rintro ⟨access, permitted⟩
  cases permitted

end Layerhouse
