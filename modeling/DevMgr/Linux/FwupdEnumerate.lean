import DevMgr.Linux.FwupdUpdateProvider

/-!
# What fwupd offers

An enumeration makes a candidate of every device of one reply and asks for the
upgrades of each. The releases of a candidate are compared with each other, the
candidates are not.
-/

open DevMgr.Core

namespace DevMgr.Linux.Fwupd
open Bytes

/-- What the daemon answers to one enumeration. The upgrades are asked for one device at a time, for
each by its place in the reply. -/
structure EnumerateReplies where
  getDevices : Call (List Dict)
  getRemotes : Call (List Dict)
  getUpgrades : ℕ → Call (List Dict)

def upgradesFor (device : ParsedDevice) (remotes : List RemoteRef)
    (getUpgrades : Call (List Dict)) :
    Call UpgradesOutcome :=
  if device.facts.updatable then fetchUpgrades getUpgrades remotes else .ok ⟨[], none⟩

def candidateOf (device : ParsedDevice) (outcome : UpgradesOutcome) : UpdateCandidate where
  providerId := str "fwupd"
  id := device.deviceId
  displayName := device.name
  currentVersion := device.version
  candidateVersion := outcome.releases.head?.map (·.version)
  facts := device.facts
  releases := outcome.releases
  details := (str "vendor", device.vendor) ::
    (outcome.queryError.map fun e => (str "upgrades", str "query failed: " ++ e)).toList

def buildCandidate (device : ParsedDevice) (remotes : List RemoteRef)
    (getUpgrades : Call (List Dict)) :
    Call UpdateCandidate :=
  (upgradesFor device remotes getUpgrades).map (candidateOf device)

def buildCandidates (remotes : List RemoteRef) (getUpgrades : ℕ → Call (List Dict)) :
    ℕ → List Dict → Call (List UpdateCandidate)
  | _, [] => .ok []
  | n, dd :: rest =>
    match parseDevice dd with
    | none => buildCandidates remotes getUpgrades (n + 1) rest
    | some parsed => do
      let candidate ← buildCandidate parsed remotes (getUpgrades n)
      let candidates ← buildCandidates remotes getUpgrades (n + 1) rest
      return candidate :: candidates

def enumerateCalls (replies : EnumerateReplies) : Call (List UpdateCandidate) := do
  let deviceDicts ← replies.getDevices
  let remotes ← fetchRemotes replies.getRemotes
  buildCandidates remotes replies.getUpgrades 0 deviceDicts

/-- `initError` says why there is no proxy. -/
def enumerate (connected : Bool) (initError : Str) (replies : EnumerateReplies) :
    Result (List UpdateCandidate) :=
  if ¬ connected then makeError .io initError
  else match enumerateCalls replies with
    | .ok candidates => .ok candidates
    | .error (.sdbus name message) => .error (mapError name message)
    | .error (.exception what) => makeError .io what

def releaseKey (r : ReleaseInfo) : Str × Str := (r.remoteId, r.checksum)

theorem eraseDups_concat {α : Type} [BEq α] [LawfulBEq α] [DecidableEq α] (l : List α) (a : α) :
    (l ++ [a]).eraseDups = if a ∈ l then l.eraseDups else l.eraseDups ++ [a] := by
  rw [List.eraseDups_append]
  by_cases h : a ∈ l
  · simp [List.removeAll, h]
  · simp [List.removeAll, h, List.eraseDups_cons]

theorem eraseDups_of_nodup {α : Type} [BEq α] [LawfulBEq α] {l : List α} (h : l.Nodup) :
    l.eraseDups = l := by
  induction l with
  | nil => rfl
  | cons a l ih =>
    obtain ⟨ha, hl⟩ := List.nodup_cons.mp h
    have hfilter : (l.filter fun b => !b == a) = l := by
      apply List.filter_eq_self.mpr
      intro b hb
      have hne : b ≠ a := fun heq => ha (heq ▸ hb)
      simp [hne]
    rw [List.eraseDups_cons, hfilter, ih hl]

theorem dedupeReleases_keys (releases : List ReleaseInfo) :
    (dedupeReleases releases).map releaseKey = (releases.map releaseKey).eraseDups ∧
      ((dedupeReleases releases).map releaseKey).Nodup := by
  induction releases using List.reverseRecOn with
  | nil => exact ⟨rfl, List.nodup_nil⟩
  | append_singleton releases r ih =>
    obtain ⟨hkeys, hnodup⟩ := ih
    have hfold : dedupeReleases (releases ++ [r]) =
        if (dedupeReleases releases).any fun e => e.remoteId = r.remoteId && e.checksum = r.checksum
        then dedupeReleases releases else dedupeReleases releases ++ [r] := by
      unfold dedupeReleases
      rw [List.foldl_append]
      rfl
    have hdup : ((dedupeReleases releases).any fun e => e.remoteId = r.remoteId &&
        e.checksum = r.checksum) = true ↔
        releaseKey r ∈ releases.map releaseKey := by
      rw [← List.mem_eraseDups, ← hkeys, List.mem_map, List.any_eq_true]
      simp [releaseKey]
    have hmem : releaseKey r ∈ (dedupeReleases releases).map releaseKey ↔
        releaseKey r ∈ releases.map releaseKey := by
      rw [hkeys, List.mem_eraseDups]
    rw [hfold, List.map_append, List.map_singleton, eraseDups_concat]
    by_cases hseen : releaseKey r ∈ releases.map releaseKey
    · rw [if_pos (hdup.mpr hseen), if_pos hseen]
      exact ⟨hkeys, hnodup⟩
    · rw [if_neg fun h => hseen (hdup.mp h), if_neg hseen, List.map_append,
        List.map_singleton, hkeys]
      refine ⟨rfl, ?_⟩
      rw [← hkeys]
      exact List.nodup_append'.mpr ⟨hnodup,
        List.nodup_singleton _, by simpa using fun h => hseen (hmem.mp h)⟩

def reported (device : ParsedDevice) (getUpgrades : Call (List Dict)) : List ReleaseInfo :=
  match device.facts.updatable, getUpgrades with
  | true, .ok raw => raw.filterMap parseRelease
  | _, _ => []

def Breaks (device : ParsedDevice) (getUpgrades : Call (List Dict)) : Prop :=
  device.facts.updatable = true ∧ ∃ what, getUpgrades = .error (.exception what)

theorem buildCandidate_ok {device : ParsedDevice} {remotes : List RemoteRef}
    {getUpgrades : Call (List Dict)}
    {candidate : UpdateCandidate} (h : buildCandidate device remotes getUpgrades = .ok candidate) :
    candidate.id = device.deviceId ∧
      candidate.releases.map releaseKey =
        ((reported device getUpgrades).map releaseKey).eraseDups ∧
      (candidate.releases.map releaseKey).Nodup := by
  unfold buildCandidate upgradesFor at h
  cases hupdatable : device.facts.updatable with
  | false =>
    rw [hupdatable] at h
    obtain rfl := Except.ok.inj h
    simp [candidateOf, reported, hupdatable]
  | true =>
    rw [hupdatable, if_pos rfl] at h
    cases getUpgrades with
    | ok raw =>
      obtain rfl := Except.ok.inj h
      obtain ⟨hkeys, hnodup⟩ := dedupeReleases_keys (raw.filterMap parseRelease)
      have hlocal : ∀ releases : List ReleaseInfo, (releases.map fun r =>
          { r with
            localCab := isLocallyResolvable r.locations remotes r.remoteId }).map releaseKey =
            releases.map releaseKey := by
        intro releases
        rw [List.map_map]
        rfl
      have hreported : reported device (.ok raw) = raw.filterMap parseRelease := by
        simp [reported, hupdatable]
      rw [hreported]
      dsimp only [candidateOf]
      rw [hlocal]
      exact ⟨rfl, hkeys, hnodup⟩
    | error fault =>
      cases fault with
      | exception what => cases h
      | sdbus name message =>
        obtain rfl := Except.ok.inj h
        simp [candidateOf, reported, hupdatable]

theorem buildCandidate_answers {device : ParsedDevice} (remotes : List RemoteRef)
    {getUpgrades : Call (List Dict)} :
    (∃ candidate, buildCandidate device remotes getUpgrades = .ok candidate) ↔
    ¬ Breaks device getUpgrades := by
  unfold buildCandidate upgradesFor Breaks
  cases hupdatable : device.facts.updatable with
  | false => simp [Except.map]
  | true =>
    cases getUpgrades with
    | ok raw => simp [fetchUpgrades, Except.map]
    | error fault => cases fault <;> simp [fetchUpgrades, Except.map]

def parsedDevices : ℕ → List Dict → List (ℕ × ParsedDevice)
  | _, [] => []
  | n, dd :: rest => ((parseDevice dd).map fun parsed => (n, parsed)).toList ++
      parsedDevices (n + 1) rest

variable {remotes : List RemoteRef} {getUpgrades : ℕ → Call (List Dict)}

theorem buildCandidates_ok {n : ℕ} {devices : List Dict} {candidates : List UpdateCandidate}
    (h : buildCandidates remotes getUpgrades n devices = .ok candidates) :
    List.Forall₂
      (fun placed candidate => buildCandidate placed.2 remotes
      (getUpgrades placed.1) = .ok candidate)
      (parsedDevices n devices) candidates := by
  induction devices generalizing n candidates with
  | nil =>
    obtain rfl := Except.ok.inj h
    exact .nil
  | cons dd rest ih =>
    unfold buildCandidates at h
    unfold parsedDevices
    cases hparsed : parseDevice dd with
    | none =>
      rw [hparsed] at h
      exact ih h
    | some parsed =>
      rw [hparsed] at h
      obtain ⟨candidate, hcandidate, h⟩ := bind_eq_ok_iff.mp h
      obtain ⟨others, hothers, h⟩ := bind_eq_ok_iff.mp h
      obtain rfl := Except.ok.inj h
      exact .cons hcandidate (ih hothers)

theorem buildCandidates_answers (remotes : List RemoteRef) {n : ℕ} {devices : List Dict} :
    (∃ candidates, buildCandidates remotes getUpgrades n devices = .ok candidates) ↔
      ∀ placed ∈ parsedDevices n devices, ¬ Breaks placed.2 (getUpgrades placed.1) := by
  induction devices generalizing n with
  | nil => simp [buildCandidates, parsedDevices]
  | cons dd rest ih =>
    unfold buildCandidates parsedDevices
    cases hparsed : parseDevice dd with
    | none => simpa using ih
    | some parsed =>
      simp only [Option.map_some, Option.toList_some, List.singleton_append, List.forall_mem_cons]
      rw [← buildCandidate_answers remotes, ← ih]
      constructor
      · intro h
        obtain ⟨candidates, h⟩ := h
        obtain ⟨candidate, hcandidate, h⟩ := bind_eq_ok_iff.mp h
        obtain ⟨others, hothers, -⟩ := bind_eq_ok_iff.mp h
        exact ⟨⟨candidate, hcandidate⟩, others, hothers⟩
      · intro h
        obtain ⟨⟨candidate, hcandidate⟩, others, hothers⟩ := h
        exact ⟨candidate :: others,
          bind_eq_ok_iff.mpr ⟨candidate, hcandidate,
            bind_eq_ok_iff.mpr ⟨others, hothers, rfl⟩⟩⟩

structure Answered (connected : Bool) (replies : EnumerateReplies) (devices : List Dict) :
    Prop where
  started : connected = true
  listed : replies.getDevices = .ok devices
  remotes : ∃ remotes, replies.getRemotes = .ok remotes
  upgrades : ∀ placed ∈ parsedDevices 0 devices, ¬ Breaks placed.2
      (replies.getUpgrades placed.1)

theorem enumerate_ok_iff {connected : Bool} {initError : Str} {replies : EnumerateReplies}
    {candidates : List UpdateCandidate} :
    enumerate connected initError replies = .ok candidates ↔
      connected = true ∧ ∃ devices remotes, replies.getDevices = .ok devices ∧
        replies.getRemotes = .ok remotes ∧
        buildCandidates (remotes.map parseRemoteRef) replies.getUpgrades 0 devices =
          .ok candidates := by
  have hcalls : enumerateCalls replies = .ok candidates ↔
      ∃ devices remotes, replies.getDevices = .ok devices ∧ replies.getRemotes = .ok remotes ∧
        buildCandidates (remotes.map parseRemoteRef) replies.getUpgrades 0 devices =
          .ok candidates := by
    unfold enumerateCalls fetchRemotes
    rw [bind_eq_ok_iff]
    constructor
    · intro h
      obtain ⟨devices, hdevices, h⟩ := h
      obtain ⟨parsed, hparsed, h⟩ := bind_eq_ok_iff.mp h
      cases hremotes : replies.getRemotes with
      | error fault =>
        rw [hremotes] at hparsed
        cases hparsed
      | ok remotes =>
        rw [hremotes] at hparsed
        obtain rfl := Except.ok.inj hparsed
        exact ⟨devices, remotes, hdevices, rfl, h⟩
    · intro h
      obtain ⟨devices, remotes, hdevices, hremotes, h⟩ := h
      refine ⟨devices, hdevices, bind_eq_ok_iff.mpr ⟨remotes.map parseRemoteRef, ?_, h⟩⟩
      rw [hremotes]
      rfl
  rw [← hcalls]
  unfold enumerate
  cases connected with
  | false => simp [makeError]
  | true =>
    cases enumerateCalls replies with
    | ok found => simp
    | error fault => cases fault <;> simp [makeError]

/-- What the rows, the selection and the pending markers rely on. -/
structure Unique (replies : EnumerateReplies) (devices : List Dict)
    (candidates : List UpdateCandidate) : Prop where
  ids : (candidates.map (·.id)).Nodup
  order : candidates.map (·.id) = ((parsedDevices 0 devices).map (·.2.deviceId)).eraseDups
  releases : ∀ candidate ∈ candidates, (candidate.releases.map releaseKey).Nodup
  offered : ∀ candidate ∈ candidates, ∃ placed ∈ parsedDevices 0 devices,
      placed.2.deviceId = candidate.id ∧
    candidate.releases.map releaseKey =
      ((reported placed.2 (replies.getUpgrades placed.1)).map releaseKey).eraseDups

theorem ids_of_candidates {placed : List (ℕ × ParsedDevice)} {candidates : List UpdateCandidate}
    (h : List.Forall₂
      (fun placed candidate => buildCandidate placed.2 remotes
      (getUpgrades placed.1) = .ok candidate)
      placed candidates) : candidates.map (·.id) = placed.map (·.2.deviceId) := by
  induction h with
  | nil => rfl
  | cons hcandidate _ ih => rw [List.map_cons, List.map_cons, ih, (buildCandidate_ok hcandidate).1]

theorem candidate_of_device {placed : List (ℕ × ParsedDevice)} {candidates : List UpdateCandidate}
    (h : List.Forall₂
      (fun placed candidate => buildCandidate placed.2 remotes
      (getUpgrades placed.1) = .ok candidate)
      placed candidates) {candidate : UpdateCandidate} (hmem : candidate ∈ candidates) :
    ∃ p ∈ placed, buildCandidate p.2 remotes (getUpgrades p.1) = .ok candidate := by
  induction h with
  | nil => cases hmem
  | cons hcandidate _ ih =>
    obtain rfl | hmem := List.mem_cons.mp hmem
    · exact ⟨_, List.mem_cons_self, hcandidate⟩
    · obtain ⟨p, hp, hbuilt⟩ := ih hmem
      exact ⟨p, List.mem_cons_of_mem _ hp, hbuilt⟩

/-- Enumerated candidates are unique exactly when no two devices of an answered reply share an
id. -/
theorem enumerate_unique_iff (connected : Bool) (initError : Str) (replies : EnumerateReplies) :
    (∀ devices candidates, replies.getDevices = .ok devices →
      enumerate connected initError replies = .ok candidates →
        Unique replies devices candidates) ↔
      ∀ devices, Answered connected replies devices →
        ((parsedDevices 0 devices).map (·.2.deviceId)).Nodup := by
  constructor
  · intro hunique devices hanswered
    obtain ⟨hconnected, hdevices, ⟨remotes, hremotes⟩, hupgrades⟩ := hanswered
    obtain ⟨candidates, hbuilt⟩ :=
      (buildCandidates_answers (remotes.map parseRemoteRef)).mpr hupgrades
    have hok : enumerate connected initError replies = .ok candidates :=
      enumerate_ok_iff.mpr ⟨hconnected, devices, remotes, hdevices, hremotes, hbuilt⟩
    rw [← ids_of_candidates (buildCandidates_ok hbuilt)]
    exact (hunique devices candidates hdevices hok).ids
  · intro hdistinct devices candidates hdevices hok
    obtain ⟨hconnected, devices', remotes, hdevices', hremotes, hbuilt⟩ :=
      enumerate_ok_iff.mp hok
    obtain rfl := Except.ok.inj (hdevices'.symm.trans hdevices)
    have hnodup := hdistinct devices'
      ⟨hconnected, hdevices, ⟨remotes, hremotes⟩,
        (buildCandidates_answers _).mp ⟨candidates, hbuilt⟩⟩
    have hids := ids_of_candidates (buildCandidates_ok hbuilt)
    constructor
    · rw [hids]
      exact hnodup
    · rw [hids, eraseDups_of_nodup hnodup]
    · intro candidate hmem
      obtain ⟨p, -, hcandidate⟩ := candidate_of_device (buildCandidates_ok hbuilt) hmem
      exact (buildCandidate_ok hcandidate).2.2
    · intro candidate hmem
      obtain ⟨p, hp, hcandidate⟩ := candidate_of_device (buildCandidates_ok hbuilt) hmem
      exact ⟨p, hp, (buildCandidate_ok hcandidate).1.symm, (buildCandidate_ok hcandidate).2.1⟩

section Doubled

def doubledReplies : EnumerateReplies := ⟨.ok [device, device], .ok [], fun _ => .ok [upgrade]⟩

theorem doubled_device_not_unique :
    ¬ ∀ connected initError (replies : EnumerateReplies) devices candidates,
    replies.getDevices = .ok devices → enumerate connected initError replies = .ok candidates →
      Unique replies devices candidates := by
  intro hall
  have hids := (hall true [] doubledReplies _ _ rfl rfl).ids
  revert hids
  decide

end Doubled

end DevMgr.Linux.Fwupd
