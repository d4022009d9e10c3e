import DevMgr.Linux.Containment

/-!
# The choice of a location

A release may have many locations. The first that can be a local path decides, whatever
becomes of it: the ones behind it are not looked at.
-/

open DevMgr.Core

namespace DevMgr.Linux
open Bytes

variable {files : CabFiles} {locations : List Str} {remotes : List RemoteRef} {remoteId : Str}
  {expected : UInt64} {cab : CabFile}

def FirstLocal (locations : List Str) (remotes : List RemoteRef) (remoteId loc : Str) : Prop :=
  ∃ before after, locations = before ++ loc :: after ∧
    candidatePath loc remotes remoteId ≠ [] ∧
    ∀ skipped ∈ before, candidatePath skipped remotes remoteId = []

def Relative (loc : Str) : Prop := ¬ (loc.head? = some 47 ∨ kFileScheme <+: loc)

instance (loc : Str) : Decidable (Relative loc) := inferInstanceAs (Decidable (¬ _))

/-- A relative location has a remote, and its path read from the canonical directory of the remote
does not begin with two dots; any other location is let through as it is. -/
def LetThrough (files : CabFiles) (remotes : List RemoteRef) (remoteId loc : Str) : Prop :=
  Relative loc → ∃ remote path root, findRemote remotes remoteId = some remote ∧
    files.weaklyCanonical (candidatePath loc remotes remoteId) = some path ∧
    files.weaklyCanonical remote.filenameCache = some root ∧
    Accepted (lexicallyRelative path root)

/-- The location is let through and leads to a regular file, not to a link, within the bounds. -/
def Opens (files : CabFiles) (remotes : List RemoteRef) (remoteId : Str) (expected : UInt64)
    (loc : Str) (cab : CabFile) : Prop :=
  LetThrough files remotes remoteId loc ∧
    ∃ size, files.entry (candidatePath loc remotes remoteId) = .regular size ∧ size ≠ 0 ∧
      size ≤ sizeCap expected ∧ cab = ⟨candidatePath loc remotes remoteId, size⟩

/-- Why a local location is refused, and the error that says so. -/
inductive Refused (files : CabFiles) (remotes : List RemoteRef) (remoteId : Str)
    (expected : UInt64) (loc : Str) : Error → Prop
  | escapes (h : ¬ LetThrough files remotes remoteId loc) :
    Refused files remotes remoteId expected loc
      ⟨.unsupported, str "cab location escapes remote directory: " ++ loc⟩
  | unopened (hlet : LetThrough files remotes remoteId loc)
    (h : files.entry (candidatePath loc remotes remoteId) = .unopenable ∨
      files.entry (candidatePath loc remotes remoteId) = .symlink) :
    Refused files remotes remoteId expected loc
      ⟨.notFound, str "cannot open firmware file: " ++ candidatePath loc remotes remoteId⟩
  | irregular (hlet : LetThrough files remotes remoteId loc)
    (h : files.entry (candidatePath loc remotes remoteId) = .special) :
    Refused files remotes remoteId expected loc ⟨.unsupported,
      str "firmware location is not a regular file: " ++ candidatePath loc remotes remoteId⟩
  | outOfBounds (hlet : LetThrough files remotes remoteId loc) (size : UInt64)
    (h : files.entry (candidatePath loc remotes remoteId) = .regular size)
    (hbounds : size = 0 ∨ sizeCap expected < size) :
    Refused files remotes remoteId expected loc ⟨.unsupported,
      str "firmware file size out of bounds: " ++ candidatePath loc remotes remoteId⟩

def StaysInside (files : CabFiles) (remotes : List RemoteRef) (remoteId loc : Str) : Prop :=
  Relative loc → ∃ remote path root, findRemote remotes remoteId = some remote ∧
    files.weaklyCanonical (candidatePath loc remotes remoteId) = some path ∧
    files.weaklyCanonical remote.filenameCache = some root ∧ (Canonical root → Inside path root)

def noLocation : Error :=
  ⟨.unsupported, str "no locally-resolvable firmware location (run `fwupdmgr update`)"⟩

theorem firstLocal_iff {loc : Str} : FirstLocal locations remotes remoteId loc ↔
    (locations.find? fun loc => candidatePath loc remotes remoteId ≠ []) = some loc := by
  rw [List.find?_eq_some_iff_append]
  constructor
  · intro ⟨before, after, heq, hlocal, hskipped⟩
    exact ⟨decide_eq_true hlocal, before, after, heq, fun l hl => by simp [hskipped l hl]⟩
  · intro ⟨hlocal, before, after, heq, hskipped⟩
    exact ⟨before, after, heq, of_decide_eq_true hlocal,
      fun l hl => by simpa using hskipped l hl⟩

theorem isLocallyResolvable_iff :
    isLocallyResolvable locations remotes remoteId = true ↔
    ∃ loc, FirstLocal locations remotes remoteId loc := by
  simp only [firstLocal_iff]
  rw [← Option.isSome_iff_exists, List.find?_isSome, isLocallyResolvable, List.any_eq_true]

theorem escapesRoot_false_iff {candidate directory : Str} :
    escapesRoot files candidate directory = false ↔ ∃ path root,
      files.weaklyCanonical candidate = some path ∧
        files.weaklyCanonical directory = some root ∧
        Accepted (lexicallyRelative path root) := by
  cases hpath : files.weaklyCanonical candidate with
  | none => simp [escapesRoot, hpath]
  | some path =>
    cases hroot : files.weaklyCanonical directory with
    | none => simp [escapesRoot, hpath, hroot]
    | some root =>
      rw [← Bool.not_eq_true, escapesRoot_iff hpath hroot, not_not]
      constructor
      · exact fun haccepted => ⟨path, root, rfl, rfl, haccepted⟩
      · rintro ⟨path', root', hpath', hroot', haccepted⟩
        rwa [Option.some.inj hpath', Option.some.inj hroot']

theorem relativeEscapeError_none_iff {loc : Str} :
    relativeEscapeError files loc (candidatePath loc remotes remoteId) remotes remoteId = none ↔
      LetThrough files remotes remoteId loc := by
  unfold relativeEscapeError LetThrough
  by_cases hrelative : Relative loc
  · rw [if_neg hrelative]
    simp only [hrelative, forall_const]
    cases findRemote remotes remoteId with
    | none => simp
    | some remote =>
      simp only [ite_eq_right_iff, reduceCtorEq, imp_false, Bool.not_eq_true]
      rw [escapesRoot_false_iff]
      simp
  · rw [if_pos (not_not.mp hrelative)]
    exact iff_of_true rfl fun h => absurd h hrelative

theorem relativeEscapeError_text {loc path escape : Str}
    (h : relativeEscapeError files loc path remotes remoteId = some escape) :
    escape = str "cab location escapes remote directory: " ++ loc := by
  unfold relativeEscapeError at h
  obtain ⟨_, h⟩ := Option.ite_none_left_eq_some.mp h
  obtain ⟨_, h⟩ := Option.ite_none_right_eq_some.mp h
  exact (Option.some.inj h).symm

theorem resolve_of_firstLocal {loc : Str} (h : FirstLocal locations remotes remoteId loc) :
    (LetThrough files remotes remoteId loc →
      resolveAndOpenCab files locations remotes remoteId expected =
        openAndValidate files (candidatePath loc remotes remoteId) expected) ∧
    (¬ LetThrough files remotes remoteId loc →
      resolveAndOpenCab files locations remotes remoteId expected =
        .error ⟨.unsupported, str "cab location escapes remote directory: " ++ loc⟩) := by
  unfold resolveAndOpenCab
  rw [firstLocal_iff.mp h, ← relativeEscapeError_none_iff]
  dsimp only
  cases hescape : relativeEscapeError files loc (candidatePath loc remotes remoteId) remotes
      remoteId with
  | none => exact ⟨fun _ => rfl, fun hnot => absurd rfl hnot⟩
  | some escape =>
    refine ⟨nofun, fun _ => ?_⟩
    rw [relativeEscapeError_text hescape]
    rfl

theorem resolve_of_none (h : ¬ ∃ loc, FirstLocal locations remotes remoteId loc) :
    resolveAndOpenCab files locations remotes remoteId expected = .error noLocation := by
  unfold resolveAndOpenCab
  simp only [firstLocal_iff] at h
  rw [Option.eq_none_iff_forall_ne_some.mpr fun loc hloc => h ⟨loc, hloc⟩]
  rfl

theorem FirstLocal.unique {loc loc' : Str} (h : FirstLocal locations remotes remoteId loc)
    (h' : FirstLocal locations remotes remoteId loc') : loc = loc' :=
  Option.some.inj ((firstLocal_iff.mp h).symm.trans (firstLocal_iff.mp h'))

theorem resolve_ok_iff : resolveAndOpenCab files locations remotes remoteId expected = .ok cab ↔
    ∃ loc, FirstLocal locations remotes remoteId loc ∧
      Opens files remotes remoteId expected loc cab := by
  constructor
  · intro hok
    by_cases hlocal : ∃ loc, FirstLocal locations remotes remoteId loc
    · obtain ⟨loc, hfirst⟩ := hlocal
      by_cases hlet : LetThrough files remotes remoteId loc
      · rw [(resolve_of_firstLocal hfirst).1 hlet] at hok
        exact ⟨loc, hfirst, hlet, openAndValidate_ok_iff.mp hok⟩
      · rw [(resolve_of_firstLocal hfirst).2 hlet] at hok
        cases hok
    · rw [resolve_of_none hlocal] at hok
      cases hok
  · rintro ⟨loc, hfirst, hlet, hopens⟩
    rw [(resolve_of_firstLocal hfirst).1 hlet]
    exact openAndValidate_ok_iff.mpr hopens

theorem refused_iff {loc : Str} {e : Error} (hlet : LetThrough files remotes remoteId loc) :
    openAndValidate files (candidatePath loc remotes remoteId) expected = .error e ↔
      Refused files remotes remoteId expected loc e := by
  constructor
  · intro herror
    rw [openAndValidate_eq] at herror
    split at herror
    · next hentry => exact Except.error.inj herror ▸ .unopened hlet (.inl hentry)
    · next hentry => exact Except.error.inj herror ▸ .unopened hlet (.inr hentry)
    · next hentry => exact Except.error.inj herror ▸ .irregular hlet hentry
    · next size hentry =>
      split_ifs at herror with hbounds
      exact Except.error.inj herror ▸ .outOfBounds hlet size hentry hbounds
  · intro hrefused
    rw [openAndValidate_eq]
    cases hrefused with
    | escapes h => exact absurd hlet h
    | unopened _ h =>
      rcases h with hentry | hentry
      · rw [hentry]
        rfl
      · rw [hentry]
        rfl
    | irregular _ hentry =>
      rw [hentry]
      rfl
    | outOfBounds _ size hentry hbounds =>
      rw [hentry]
      exact if_pos hbounds

theorem resolve_error_iff {e : Error} :
    resolveAndOpenCab files locations remotes remoteId expected = .error e ↔
      (¬ (∃ loc, FirstLocal locations remotes remoteId loc) ∧ e = noLocation) ∨
        ∃ loc, FirstLocal locations remotes remoteId loc ∧
          Refused files remotes remoteId expected loc e := by
  by_cases hlocal : ∃ loc, FirstLocal locations remotes remoteId loc
  · obtain ⟨loc, hfirst⟩ := hlocal
    have hone : (∃ loc, FirstLocal locations remotes remoteId loc ∧
        Refused files remotes remoteId expected loc e) ↔
          Refused files remotes remoteId expected loc e :=
      ⟨fun ⟨_, hfirst', h⟩ => hfirst.unique hfirst' ▸ h, fun h => ⟨loc, hfirst, h⟩⟩
    rw [or_iff_right fun h => h.1 ⟨loc, hfirst⟩, hone]
    by_cases hlet : LetThrough files remotes remoteId loc
    · rw [(resolve_of_firstLocal hfirst).1 hlet]
      exact refused_iff hlet
    · rw [(resolve_of_firstLocal hfirst).2 hlet]
      constructor
      · intro herror
        exact Except.error.inj herror ▸ .escapes hlet
      · intro hrefused
        cases hrefused <;> first | rfl | contradiction
  · rw [resolve_of_none hlocal, or_iff_left fun ⟨loc, hfirst, _⟩ => hlocal ⟨loc, hfirst⟩]
    exact ⟨fun herror => ⟨hlocal, (Except.error.inj herror).symm⟩, fun h => by rw [h.2]⟩

theorem ne_noLocation {text rest : Str} {code : Error.Code} (hne : text ≠ [])
    (htext : text.head? ≠ noLocation.message.head?) :
    (⟨code, text ++ rest⟩ : Error) ≠ noLocation := by
  intro h
  have hmessage := congrArg (fun e => e.message.head?) h
  dsimp only at hmessage
  rw [List.head?_append_of_ne_nil _ hne] at hmessage
  exact htext hmessage

theorem Refused.ne_noLocation {loc : Str} {e : Error}
    (h : Refused files remotes remoteId expected loc e) : e ≠ noLocation := by
  cases h with
  | escapes => exact Linux.ne_noLocation (by decide) (by decide)
  | unopened => exact Linux.ne_noLocation (by decide) (by decide)
  | irregular => exact Linux.ne_noLocation (by decide) (by decide)
  | outOfBounds => exact Linux.ne_noLocation (by decide) (by decide)

theorem isLocallyResolvable_iff_reaches : isLocallyResolvable locations remotes remoteId = true ↔
    resolveAndOpenCab files locations remotes remoteId expected ≠ .error noLocation := by
  rw [isLocallyResolvable_iff, ne_eq, resolve_error_iff, not_or]
  constructor
  · intro hlocal
    exact ⟨fun h => h.1 hlocal, fun ⟨_, _, hrefused⟩ => hrefused.ne_noLocation rfl⟩
  · intro h
    by_contra hlocal
    exact h.1 ⟨hlocal, rfl⟩

theorem lexicallyRelative_of_not_absolute {path root : Str} (hroot : root.head? = some 47)
    (hpath : path.head? ≠ some 47) : lexicallyRelative path root = [] := by
  unfold lexicallyRelative
  rw [if_pos (by simp [isAbsolute, hroot, hpath])]

theorem LetThrough.staysInside {loc : Str} (h : LetThrough files remotes remoteId loc) :
    StaysInside files remotes remoteId loc := by
  intro hrelative
  obtain ⟨remote, path, root, hremote, hpath, hroot, haccepted⟩ := h hrelative
  refine ⟨remote, path, root, hremote, hpath, hroot, fun hcanonical => ?_⟩
  by_contra houtside
  by_cases habsolute : path.head? = some 47
  · rw [relative_cab habsolute hcanonical.absolute] at haccepted
    exact not_accepted_outside joins_pathAppend habsolute hcanonical houtside haccepted
  · exact haccepted.1 (lexicallyRelative_of_not_absolute hcanonical.absolute habsolute)

/-- A release is locally resolvable exactly when a location is reached; the first local location
alone decides what is opened or which error is returned, and a relative one opens nothing outside
the directory of its remote. -/
theorem first_local_decides (files : CabFiles) (locations : List Str) (remotes : List RemoteRef)
    (remoteId : Str) (expected : UInt64) :
    ((isLocallyResolvable locations remotes remoteId = true ↔
        ∃ loc, FirstLocal locations remotes remoteId loc) ∧
      (isLocallyResolvable locations remotes remoteId = true ↔
        resolveAndOpenCab files locations remotes remoteId expected ≠ .error noLocation)) ∧
    (∀ cab, (resolveAndOpenCab files locations remotes remoteId expected = .ok cab ↔
        ∃ loc, FirstLocal locations remotes remoteId loc ∧
          Opens files remotes remoteId expected loc cab) ∧
      (resolveAndOpenCab files locations remotes remoteId expected = .ok cab →
        ∃ loc ∈ locations, cab.path = candidatePath loc remotes remoteId ∧
          StaysInside files remotes remoteId loc)) ∧
    ∀ e, resolveAndOpenCab files locations remotes remoteId expected = .error e ↔
      (¬ (∃ loc, FirstLocal locations remotes remoteId loc) ∧ e = noLocation) ∨
        ∃ loc, FirstLocal locations remotes remoteId loc ∧
          Refused files remotes remoteId expected loc e := by
  refine ⟨⟨isLocallyResolvable_iff, isLocallyResolvable_iff_reaches⟩, fun cab => ?_,
    fun e => resolve_error_iff⟩
  refine ⟨resolve_ok_iff, ?_⟩
  intro hok
  obtain ⟨loc, ⟨before, after, heq, _⟩, hlet, size, _, _, _, hcab⟩ := resolve_ok_iff.mp hok
  refine ⟨loc, ?_, ?_, hlet.staysInside⟩
  · rw [heq]
    exact List.mem_append_right _ List.mem_cons_self
  · rw [hcab]

section Missing

def vendorDirectory : List RemoteRef := [⟨str "vendor", str "directory", str "/cabs"⟩]

def onlyGood : CabFiles :=
  ⟨some, fun path => if path = str "/cabs/good.cab" then .regular 16 else .unopenable⟩

theorem missing_blocks_good : ¬ ∀ files locations remotes remoteId expected,
    (∃ loc ∈ locations, candidatePath loc remotes remoteId ≠ [] ∧
      ∃ cab, Opens files remotes remoteId expected loc cab) →
      ∃ cab, resolveAndOpenCab files locations remotes remoteId expected = .ok cab := by
  intro hall
  have hlet : LetThrough onlyGood vendorDirectory (str "vendor") (str "good.cab") := fun _ =>
    ⟨⟨str "vendor", str "directory", str "/cabs"⟩, str "/cabs/good.cab",
      str "/cabs", rfl, rfl, rfl,
      by decide⟩
  have hgood : ∃ cab, Opens onlyGood vendorDirectory (str "vendor") 16 (str "good.cab") cab :=
    ⟨⟨str "/cabs/good.cab", 16⟩, hlet, 16, rfl, by decide, by decide, rfl⟩
  obtain ⟨cab, hcab⟩ :=
    hall onlyGood [str "missing.cab", str "good.cab"] vendorDirectory (str "vendor") 16
      ⟨str "good.cab", by decide, by decide, hgood⟩
  cases hcab

end Missing

end DevMgr.Linux
