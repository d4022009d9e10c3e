import DevMgr.Daemon.Bench
import DevMgr.Daemon.RequestProcessor
import DevMgr.Daemon.SysfsIdentity

/-!
# What enabling a device leaves in the store

Enabling deletes the entries with the key of the first entry found for the
device, by its key or by the stored path. What identifies the device in sysfs is
assumed to stay while the verb writes.
-/

open DevMgr.Core

namespace DevMgr.Daemon
open Bytes Program

variable {W : Type}

/-- The writes of the daemon leave what identifies the device of the directory. -/
structure Platform.Steady (P : Platform W) (dir : Str) : Prop where
  setEnabled : ∀ w enabled hint, P.SameAt dir w (P.setEnabled w dir enabled hint).2
  writeState : ∀ w text, P.SameAt dir w (P.writeState w text).2
  putSnapshot : ∀ w payload trigger reason createdAtUtc,
    P.SameAt dir w (P.putSnapshot w payload trigger reason createdAtUtc).2

def entriesAfterEnable (entries : List DisabledDeviceEntry) (device : Device) :
    List DisabledDeviceEntry :=
  match entries.find? fun e => FoundFor e device with
  | none => entries
  | some e => StateStore.remove e.key entries

theorem foundFor_congr {device device' : Device} (h : SameIdentity device device')
    (e : DisabledDeviceEntry) : FoundFor e device' ↔ FoundFor e device := by
  unfold FoundFor
  rw [matchesDevice_congr h, h.sysfsPath]

theorem foundFor_probed (canonical : Str) {device device' : Device}
    (h : SameIdentity device device') (hpath : device.sysfsPath = canonical) :
    (fun e : DisabledDeviceEntry => decide (e.lastSysfsPath = canonical ∨
      (some device').any (fun probed => matchesDevice e.key probed) = true)) =
      fun e => decide (FoundFor e device) := by
  funext e
  apply decide_eq_decide.mpr
  rw [← foundFor_congr h, FoundFor, h.sysfsPath, hpath, Option.any_some]
  exact or_comm

section Verb
variable {J : Json.Codec} {P : Platform W} {t : Thread} {s : State W} {canonical : Str}

theorem leaves_done {α : Type} {a : α} {Q : Result α → State W → Prop} :
    Leaves (respond J P t) (pure a : Verb α).run s Q ↔ Q (.ok a) s := leaves_pure

theorem leaves_throw {α : Type} {error : Error} {Q : Result α → State W → Prop} :
    Leaves (respond J P t) (throw error : Verb α).run s Q ↔ Q (.error error) s := leaves_pure

structure UntouchedAt (P : Platform W) (canonical : Str) (s s' : State W) : Prop where
  entries : s'.entries = s.entries
  same : P.SameAt canonical s.world s'.world

theorem leaves_snapshotBefore {verb : String} {subject : Str} {s₀ : State W}
    (hsteady : P.Steady canonical) (hs : UntouchedAt P canonical s₀ s) :
    Leaves (respond J P t) (snapshotBefore verb subject).run s fun _ s' =>
      UntouchedAt P canonical s₀ s' := by
  have hissued : Only (fun o : Op => o.Sees ∨ ∃ payload trigger reason now,
      o = .putSnapshot payload trigger reason now) (snapshotBefore verb subject).run :=
    only_snapshotBefore (fun _ => .inl) fun payload now => .inr ⟨payload, _, _, now, rfl⟩
  refine leaves_only hissued ?_ hs
  rintro o s (ho | ⟨payload, trigger, reason, now, rfl⟩) h
  · rw [respond_reads J P o s (.inl ho)]
    exact h
  · exact ⟨h.entries, h.same.trans (hsteady.putSnapshot ..)⟩

theorem leaves_setEnabled {hint : Str} {enabled : Bool} {s₀ : State W}
    (hsteady : P.Steady canonical) (hs : P.SameAt canonical s₀.world s.world) :
    Leaves (respond J P t) (setEnabled none canonical enabled hint).run s fun _ s' =>
      s'.entries = s.entries ∧ P.SameAt canonical s₀.world s'.world :=
  leaves_call.mpr ⟨rfl, hs.trans (hsteady.setEnabled ..)⟩

theorem leaves_save (entries : List DisabledDeviceEntry) {s₀ : State W}
    (hsteady : P.Steady canonical) (hs : P.SameAt canonical s₀.world s.world) :
    (s.save J P entries).2.entries = entries ∧ P.SameAt canonical s₀.world
      (s.save J P entries).2.world := by
  unfold State.save
  dsimp only
  split_ifs
  · exact ⟨rfl, hs.trans (hsteady.writeState ..)⟩
  · exact ⟨rfl, hs⟩

theorem leaves_applyEnable {s₀ : State W} (hsteady : P.Steady canonical)
    (hs : UntouchedAt P canonical s₀ s) (hpresent : P.isDirectory s₀.world canonical = true) :
    Leaves (respond J P t) (applyEnable canonical).run s fun r s' => r = .ok () →
      s'.entries = entriesAfterEnable s₀.entries (P.identityAt s₀.world canonical) ∧
      P.SameAt canonical s₀.world s'.world := by
  refine leaves_step.mpr (leaves_lift.mpr (leaves_call.mpr ?_))
  have hdirectory : P.isDirectory s.world canonical = true := hs.same.directory.trans hpresent
  simp only [respond, hdirectory, if_true]
  refine leaves_step.mpr (leaves_map.mpr (leaves_lift.mpr (leaves_deviceFromSysfs.mono ?_)))
  rintro device s' ⟨rfl, hdevice⟩
  refine leaves_step.mpr (leaves_lift.mpr (leaves_call.mpr ?_))
  rw [hs.same.identityAt] at hdevice
  dsimp only [respond]
  rw [foundFor_probed canonical hdevice rfl, hs.entries]
  cases hfind : s₀.entries.find? fun e => FoundFor e (P.identityAt s₀.world canonical) with
  | none =>
    refine leaves_map.mpr ((leaves_setEnabled hsteady hs.same).mono fun r s'' h _ => ?_)
    rw [entriesAfterEnable, hfind]
    exact ⟨h.1.trans hs.entries, h.2⟩
  | some e =>
    refine leaves_step.mpr
      (leaves_bind.mpr (leaves_call.mpr (leaves_orRaise.mpr fun result _ => ?_)))
    have hremoved :=
      leaves_save (J := J) (s := s') (StateStore.remove e.key s'.entries) hsteady hs.same
    cases result with
    | error error =>
      intro h
      cases h
    | ok u =>
      refine leaves_map.mpr ((leaves_setEnabled hsteady hremoved.2).mono fun r s'' h _ => ?_)
      rw [entriesAfterEnable, hfind]
      refine ⟨h.1.trans ?_, h.2⟩
      rw [← hs.entries]
      exact hremoved.1

theorem leaves_actEnabled (hsteady : P.Steady canonical)
    (hpresent : P.isDirectory s.world canonical = true) :
    Leaves (respond J P t) (actLocked "SetDeviceEnabled" canonical (applyEnable canonical)).run s
      fun r s' => r = .ok () →
        s'.entries = entriesAfterEnable s.entries (P.identityAt s.world canonical) ∧
        P.SameAt canonical s.world s'.world := by
  refine leaves_bind.mpr (leaves_call.mpr (leaves_ending.mpr (leaves_step.mpr ?_)))
  have hlocked : UntouchedAt P canonical s (respond J P t .lock s).2 := ⟨rfl, .refl⟩
  refine (leaves_snapshotBefore hsteady hlocked).mono fun r s' hs' => ?_
  cases r with
  | error error => exact nofun
  | ok u => exact leaves_applyEnable hsteady hs' hpresent

theorem leaves_canonicalContained {sysfsRoot path : Str}
    (hcanonical : P.weaklyCanonical s.world path = some canonical) :
    Leaves (respond J P t) (canonicalContained sysfsRoot path).run s fun r s' =>
      ∀ c, r = .ok c → s' = s ∧ c = canonical ∧ P.isDirectory s.world canonical = true := by
  refine leaves_step.mpr (leaves_lift.mpr (leaves_call.mpr ?_))
  simp only [respond, hcanonical]
  have hpresent : Leaves (S := daemon) (respond J P t) (ExceptT.run (do
      if ¬ (← call (S := daemon) (.isDirectory canonical)) then
        throw ⟨.notFound, str "device no longer present: " ++ path⟩
      return canonical : Verb Str)) s fun r s' =>
      ∀ c, r = .ok c → s' = s ∧ c = canonical ∧ P.isDirectory s.world canonical = true := by
    refine leaves_step.mpr (leaves_lift.mpr (leaves_call.mpr ?_))
    dsimp only
    by_cases hdirectory : (respond J P t (.isDirectory canonical) s).1 = true
    · rw [if_neg (not_not.mpr hdirectory)]
      exact leaves_done.mpr fun c hc => ⟨rfl, (Except.ok.inj hc).symm, hdirectory⟩
    · rw [if_pos hdirectory]
      exact leaves_step.mpr (leaves_throw.mpr nofun)
  refine leaves_step.mpr (leaves_lift.mpr (leaves_call.mpr ?_))
  dsimp only
  split_ifs
  · exact leaves_step.mpr (leaves_throw.mpr nofun)
  · exact hpresent

theorem leaves_setDeviceEnabled {sysfsRoot caller path : Str} (hsteady : P.Steady canonical)
    (hcanonical : P.weaklyCanonical s.world path = some canonical) :
    Leaves (respond J P t) (setDeviceEnabled sysfsRoot caller path true).run s fun r s' =>
      r = .ok () →
      s'.entries = entriesAfterEnable s.entries (P.identityAt s.world canonical) ∧
      P.SameAt canonical s.world s'.world := by
  refine leaves_step.mpr (leaves_pure.mpr ?_)
  split
  · refine leaves_step.mpr (leaves_pure.mpr ?_)
    split
    · refine leaves_step.mpr ((leaves_canonicalContained hcanonical).mono fun r s' hr => ?_)
      cases r with
      | error error => exact nofun
      | ok c =>
        obtain ⟨rfl, rfl, hpresent⟩ := hr c rfl
        have hauthorize : Only Op.Reads (authorize caller kActionSetDeviceEnabled).run :=
          only_authorize (.inr (.inr (.inr ⟨_, _, rfl⟩)))
        refine leaves_step.mpr ((leaves_reads hauthorize).mono fun r s'' hs'' => ?_)
        subst hs''
        cases r with
        | error error => exact nofun
        | ok u => exact leaves_actEnabled hsteady hpresent
    · exact nofun
  · exact nofun

/-- Every entry found for the device has one key; it matches the device, or is the key of no entry
stored under another path. -/
def Unambiguous (entries : List DisabledDeviceEntry) (device : Device) : Prop :=
  ∀ e ∈ entries, FoundFor e device →
    (∀ e' ∈ entries, FoundFor e' device → e'.key = e.key) ∧
    (matchesDevice e.key device = true ∨
      ∀ e' ∈ entries, e'.key = e.key → e'.lastSysfsPath = device.sysfsPath)

instance (entries : List DisabledDeviceEntry) (device : Device) :
    Decidable (Unambiguous entries device) :=
  inferInstanceAs (Decidable (∀ e ∈ entries, FoundFor e device → _ ∧ _))

/-- The entries that were removed identify the device, and none that is left is found for it, in
whatever state it comes. -/
structure EnabledForGood (device : Device) (entries entries' : List DisabledDeviceEntry) :
    Prop where
  cleared : ∀ device', SameIdentity device device' → StateStore.findFor device' entries' = none
  removed : ∀ e ∈ entries, e ∉ entries' → matchesDevice e.key device = true ∨
    e.lastSysfsPath = device.sysfsPath ∧ ∀ e' ∈ entries, matchesDevice e'.key device = false

theorem findFor_eq_none {device : Device} {entries : List DisabledDeviceEntry} :
    StateStore.findFor device entries = none ↔ ∀ e ∈ entries, ¬ FoundFor e device := by
  rw [StateStore.findFor, List.find?_eq_none]
  exact forall₂_congr fun e _ => by rw [decide_eq_true_eq]; rfl

theorem entriesAfterEnable_congr {device device' : Device} (h : SameIdentity device device')
    (entries : List DisabledDeviceEntry) :
    entriesAfterEnable entries device' = entriesAfterEnable entries device := by
  have hfound : (fun e : DisabledDeviceEntry => decide (FoundFor e device')) =
      fun e => decide (FoundFor e device) :=
        funext fun e => decide_eq_decide.mpr (foundFor_congr h e)
  unfold entriesAfterEnable
  rw [hfound]

theorem mem_remove {key : DeviceKey} {entries : List DisabledDeviceEntry}
    {e : DisabledDeviceEntry} :
    e ∈ StateStore.remove key entries ↔ e ∈ entries ∧ e.key ≠ key := by
  simp [StateStore.remove]

theorem enabledForGood_iff {device : Device} {entries : List DisabledDeviceEntry} :
    EnabledForGood device entries (entriesAfterEnable entries device) ↔
      Unambiguous entries device := by
  unfold entriesAfterEnable
  cases hfind : entries.find? fun e => FoundFor e device with
  | none =>
    have hnone : ∀ e ∈ entries, ¬ FoundFor e device := by simpa using hfind
    refine iff_of_true ⟨fun device' h => ?_, fun e he he' => absurd he he'⟩ fun e he hfound =>
      absurd hfound (hnone e he)
    exact findFor_eq_none.mpr fun e he hfound => hnone e he ((foundFor_congr h e).mp hfound)
  | some first =>
    have hmem : first ∈ entries := List.mem_of_find?_eq_some hfind
    have hfirst : FoundFor first device := by simpa using List.find?_some hfind
    constructor
    · rintro ⟨hcleared, hremoved⟩
      have hkey : ∀ e ∈ entries, FoundFor e device → e.key = first.key := by
        intro e he hfound
        by_contra hne
        exact findFor_eq_none.mp (hcleared device ⟨rfl, rfl, rfl, rfl, rfl⟩) e
          (mem_remove.mpr ⟨he, hne⟩) hfound
      intro e he hfound
      refine ⟨fun e' he' hfound' => (hkey e' he' hfound').trans (hkey e he hfound).symm, ?_⟩
      by_cases hmatches : matchesDevice e.key device = true
      · exact .inl hmatches
      · refine .inr fun e' he' hsame => ?_
        have hgone : e' ∉ StateStore.remove first.key entries := fun hleft =>
          (mem_remove.mp hleft).2 (hsame.trans (hkey e he hfound))
        rcases hremoved e' he' hgone with hmatches' | ⟨hpath, -⟩
        · exact absurd (hsame ▸ hmatches') hmatches
        · exact hpath
    · intro hunambiguous
      obtain ⟨hkey, hidentifies⟩ := hunambiguous first hmem hfirst
      refine ⟨fun device' h => findFor_eq_none.mpr fun e he hfound => ?_, fun e he hgone => ?_⟩
      · obtain ⟨he, hne⟩ := mem_remove.mp he
        exact hne (hkey e he ((foundFor_congr h e).mp hfound))
      · have hsame : e.key = first.key := by
          by_contra hne
          exact hgone (mem_remove.mpr ⟨he, hne⟩)
        by_cases hmatches : matchesDevice first.key device = true
        · exact .inl (hsame ▸ hmatches)
        · refine .inr ⟨(hidentifies.resolve_left hmatches) e he hsame, fun e' he' => ?_⟩
          by_contra hmatches'
          have hmatches' : matchesDevice e'.key device = true := by simpa using hmatches'
          exact hmatches (hkey e' he' (.inl hmatches') ▸ hmatches')

/-- Enabling a device leaves nothing that would disable it again, and takes nothing else away,
exactly when the entries found for it are unambiguous. -/
theorem enable_for_good_iff {sysfsRoot caller path : Str} {device : Device}
    (hcanonical : P.weaklyCanonical s.world path = some canonical) (hsteady : P.Steady canonical)
    (hdevice : (run (respond J P t) (deviceFromSysfs canonical) s).value = some device)
    (hok : (run (respond J P t) (setDeviceEnabled sysfsRoot caller path true).run s).value =
      some (.ok ())) :
    (∀ device', (run (respond J P t) (deviceFromSysfs canonical)
        (run (respond J P t) (setDeviceEnabled sysfsRoot caller path true).run s).state).value =
          some device' → SameIdentity device device') ∧
    (EnabledForGood device s.entries
        (run (respond J P t) (setDeviceEnabled sysfsRoot caller path true).run s).state.entries ↔
      Unambiguous s.entries device) := by
  obtain ⟨hentries, hsame⟩ := leaves_setDeviceEnabled hsteady hcanonical _ hok rfl
  have hbefore : SameIdentity (P.identityAt s.world canonical) device :=
    (leaves_deviceFromSysfs device hdevice).2
  constructor
  · intro device' hdevice'
    have hafter := (leaves_deviceFromSysfs device' hdevice').2
    rw [hsame.identityAt] at hafter
    exact hbefore.symm.trans hafter
  · rw [hentries, ← entriesAfterEnable_congr hbefore]
    exact enabledForGood_iff

end Verb

namespace Bench

theorem steady_usbPlatform (dir : Str) : usbPlatform.Steady dir where
  setEnabled w enabled hint := by
    refine ⟨?_, rfl, fun _ _ => rfl⟩
    have hpaths : ∀ d : Device, (if d.sysfsPath = dir then
        { d with status := if enabled then .active else .disabled }
        else d).sysfsPath = d.sysfsPath := by
      intro d
      split_ifs <;> rfl
    simp only [usbPlatform, platform, switch, List.any_map, Function.comp_def, hpaths]
  writeState w text := .refl
  putSnapshot w payload trigger reason createdAtUtc := .refl

end Bench

section Runs
open Bench

abbrev enabling (entries : List DisabledDeviceEntry) : Ran daemon (Result Unit) (State Bench) :=
  run (respond Json.reference usbPlatform .bus)
    (setDeviceEnabled (str "/sys") (str ":1.9") (keyboard "1-4").sysfsPath true).run
    (idle keyboardAttached entries)

theorem enable_for_good_keyboard :
    EnabledForGood (keyboard "1-4") [keyboardEntry "1-4"]
      (enabling [keyboardEntry "1-4"]).state.entries := by
  have hok : (enabling [keyboardEntry "1-4"]).value = some (.ok ()) := by rfl
  have hdevice : (run (respond Json.reference usbPlatform .bus)
      (deviceFromSysfs (keyboard "1-4").sysfsPath)
        (idle keyboardAttached [keyboardEntry "1-4"])).value =
      some (keyboard "1-4") := by rfl
  exact (enable_for_good_iff rfl (steady_usbPlatform _) hdevice hok).2.mpr (by decide)

theorem enable_shadowed :
    (enabling [mouseEntry "1-4", keyboardEntry "1-4"]).value = some (.ok ()) ∧
    ¬ EnabledForGood (keyboard "1-4") [mouseEntry "1-4", keyboardEntry "1-4"]
      (enabling [mouseEntry "1-4", keyboardEntry "1-4"]).state.entries := by
  have hleft : (enabling [mouseEntry "1-4", keyboardEntry "1-4"]).state.entries =
      [keyboardEntry "1-4"] := by rfl
  refine ⟨by rfl, fun hgood => ?_⟩
  have hnone := hgood.cleared (keyboard "1-4") ⟨rfl, rfl, rfl, rfl, rfl⟩
  rw [hleft] at hnone
  exact absurd hnone (by decide)

end Runs

end DevMgr.Daemon
