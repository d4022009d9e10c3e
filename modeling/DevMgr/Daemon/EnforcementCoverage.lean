import DevMgr.Daemon.EnforcementKeys

/-!
# The devices enforcement reaches

A turn is spent on one device, the first that is found for the entry by its key
or its stored path. Another device that matches the entry is left out, unless the
turn of another entry comes to it.
-/

open DevMgr.Core

namespace DevMgr.Daemon
open Bytes Program

variable {W : Type} (J : Json.Codec) (P : Platform W) (t : Thread)

structure TakesTurns {α : Type} (all : List Device) (turn : DisabledDeviceEntry → Prog daemon α) :
    Prop where
  enforces : Enforces J P t all turn
  suspends : ∀ entry s device, Located J P t all entry s device →
      needsApply entry device = true →
    P.probeError s.world = none → ¬ Allowed P s device.sysfsPath →
    (run (respond J P t) (turn entry) s).state =
      (respond J P t (.setGuardSuspended entry.key true) s).2
  keys : ∀ entry (s : State W), (run (respond J P t) (turn entry) s).state.entries.map (·.key) =
    s.entries.map (·.key)

/-- The device has been disabled, or has been refused by the guard with the entry marked. -/
def Covered {α : Type} (all : List Device) (turn : DisabledDeviceEntry → Prog daemon α)
    (s : State W) (issued : List Op) (entry : DisabledDeviceEntry) (device : Device) : Prop :=
  (∃ behalf hint, Op.setEnabled behalf device.sysfsPath false hint ∈ issued) ∨
  ∃ x s', Turn (respond J P t) turn s.entries s x s' ∧
    (∃ found, Located J P t all x s' found ∧ found.sysfsPath = device.sysfsPath) ∧
    ¬ Allowed P s' device.sysfsPath ∧
    Op.setGuardSuspended entry.key true ∈ (run (respond J P t) (turn x) s').issued ∧
    ∃ e ∈ (run (respond J P t) (turn x) s').state.entries, e.key = entry.key ∧
    e.guardSuspended = true

/-- The turn of an entry comes to the device, which is not in the state that entry asks for. It is
an entry with the same key, or the guard lets the device go in that turn. -/
def Reached {α : Type} (all : List Device) (turn : DisabledDeviceEntry → Prog daemon α)
    (s : State W) (entry : DisabledDeviceEntry) (device : Device) : Prop :=
  ∃ x s' found, Turn (respond J P t) turn s.entries s x s' ∧
    all.find? (fun d => FoundFor x d) = some found ∧ found.sysfsPath = device.sysfsPath ∧
    needsApply x found = true ∧ (x.key = entry.key ∨ Allowed P s' device.sysfsPath)

variable {J P t} {s : State W} {all : List Device} {entry : DisabledDeviceEntry} {device : Device}

theorem located_of_find (h : all.find? (fun d => FoundFor entry d) = some device) :
    Located J P t all entry s device := by
  unfold Located locate
  rw [h]
  rfl

theorem located_unique {device' : Device} (h : Located J P t all entry s device)
    (h' : Located J P t all entry s device') : device = device' := by
  have hsome : some (some device) = some (some device') := h.symm.trans h'
  simpa using hsome

theorem returns_locate_cases (all : List Device) (entry : DisabledDeviceEntry) :
    Returns (fun found => ∀ device, found = some device →
      all.find? (fun d => FoundFor entry d) = some device ∨
      all.find? (fun d => FoundFor entry d) = none ∧ entry.lastSysfsPath = device.sysfsPath)
      (locate all entry) := by
  unfold locate
  split
  · rename_i device hfound
    exact fun _ h => .inl (Option.some.inj h ▸ hfound)
  · rename_i hnone
    split_ifs
    · exact nofun
    · refine returns_then fun present => ?_
      split_ifs
      · exact returns_bind (returns_deviceFromSysfs _) fun device hpath _ h =>
          .inr ⟨hnone, Option.some.inj h ▸ hpath.symm⟩
      · exact nofun

theorem find_of_located {found : Device} (hdevice : device ∈ all)
    (h : Located J P t all entry s found) (hpath : found.sysfsPath = device.sysfsPath) :
    all.find? (fun d => FoundFor entry d) = some found := by
  rcases run_returns _ (returns_locate_cases all entry) h found rfl with
    hfind | ⟨hnone, hstored⟩
  · exact hfind
  · have hfound : FoundFor entry device := .inr (hstored.trans hpath)
    exact absurd hfound (by simpa using List.find?_eq_none.mp hnone device hdevice)

section Turn
variable {α : Type} {turn : DisabledDeviceEntry → Prog daemon α}

theorem Enforces.disables_iff (h : Enforces J P t all turn) (hprobe : P.probeError s.world = none)
    {path : Str} :
    (∃ behalf hint, Op.setEnabled behalf path false hint ∈
      (run (respond J P t) (turn entry) s).issued) ↔
      ∃ found, Located J P t all entry s found ∧ needsApply entry found = true ∧
        Allowed P s found.sysfsPath ∧ found.sysfsPath = path := by
  have hall := h (fun o => ∀ behalf hint, o ≠ .setEnabled behalf path false hint)
    (fun o ho behalf hint heq => by rw [heq] at ho; exact ho) entry s
  have hissued : (∃ behalf hint, Op.setEnabled behalf path false hint ∈
      (run (respond J P t) (turn entry) s).issued) ↔ ¬ (run (respond J P t) (turn entry) s).All
      fun o : Op => ∀ behalf hint, o ≠ .setEnabled behalf path false hint := by
    simp only [Ran.All, not_forall, not_not]
    constructor
    · rintro ⟨behalf, hint, hmem⟩
      exact ⟨_, hmem, behalf, hint, rfl⟩
    · rintro ⟨o, hmem, behalf, hint, rfl⟩
      exact ⟨behalf, hint, hmem⟩
  rw [hissued, hall]
  simp [hprobe, and_left_comm]

theorem Enforces.located_of_disables (h : Enforces J P t all turn) {behalf : Option Enforced}
    {path hint : Str}
    (hmem : Op.setEnabled behalf path false hint ∈ (run (respond J P t) (turn entry) s).issued) :
    ∃ found, Located J P t all entry s found ∧ needsApply entry found = true ∧
    found.sysfsPath = path := by
  by_contra hnot
  have hall :=
    (h (· ≠ .setEnabled behalf path false hint) (fun o ho heq => by rw [heq] at ho; exact ho)
      entry s).mpr fun device hlocated hneeds _ => ⟨fun _ heq => ?_, fun _ => nofun⟩
  · exact hall _ hmem rfl
  · injection heq with _ hpath
    exact hnot ⟨device, hlocated, hneeds, hpath⟩

theorem Enforces.suspends_iff (h : Enforces J P t all turn) (hprobe : P.probeError s.world = none)
    {key : DeviceKey} :
    Op.setGuardSuspended key true ∈ (run (respond J P t) (turn entry) s).issued ↔
      ∃ found, Located J P t all entry s found ∧ needsApply entry found = true ∧
        ¬ Allowed P s found.sysfsPath ∧ entry.key = key := by
  rw [mem_issued_iff, h (· ≠ .setGuardSuspended key true)
    (fun o ho heq => by rw [heq] at ho; exact ho) entry s]
  simp [hprobe]

theorem marked_of_suspended {key : DeviceKey} (hkey : ∃ e ∈ s.entries, e.key = key) :
    ∃ e ∈ (respond J P t (.setGuardSuspended key true) s).2.entries,
      e.key = key ∧ e.guardSuspended = true := by
  change ∃ e ∈ (s.updateEntry J P key fun e => { e with guardSuspended := true }).2.entries, _
  unfold State.updateEntry
  cases hupdate : StateStore.update key (fun e => { e with guardSuspended := true }) s.entries with
  | none =>
    have hsome := update_isSome (f := fun e => { e with guardSuspended := true }) hkey
    rw [hupdate] at hsome
    exact absurd hsome (by simp)
  | some entries =>
    obtain ⟨e, _, rfl, hchanged⟩ := update_changed hupdate
    dsimp only
    rw [save_entries]
    exact ⟨_, hchanged, rfl, rfl⟩

theorem covered_iff_reached {issued : List Op} (h : TakesTurns J P t all turn)
    (hprobe : ∀ w, P.probeError w = none)
    (hissued : ∀ o : Op, ¬ o.Minor → (o ∈ issued ↔ ∃ x s',
      Turn (respond J P t) turn s.entries s x s' ∧
      o ∈ (run (respond J P t) (turn x) s').issued))
    (hdevice : device ∈ all) :
    Covered J P t all turn s issued entry device ↔ Reached J P t all turn s entry device := by
  constructor
  · rintro (⟨behalf, hint, hmem⟩ |
      ⟨x, s', hturn, ⟨found, hlocated, hpath⟩, _, hmem, _⟩)
    · obtain ⟨x, s', hturn, hdisabled⟩ := (hissued _ id).mp hmem
      obtain ⟨found, hlocated, hneeds, hallowed, hpath⟩ :=
        (h.enforces.disables_iff (hprobe _)).mp ⟨behalf, hint, hdisabled⟩
      exact ⟨x, s', found, hturn, find_of_located hdevice hlocated hpath, hpath, hneeds,
        .inr (hpath ▸ hallowed)⟩
    · obtain ⟨found', hlocated', hneeds, _, hkey⟩ :=
        (h.enforces.suspends_iff (hprobe _)).mp hmem
      obtain rfl := located_unique hlocated hlocated'
      exact ⟨x, s', found, hturn, find_of_located hdevice hlocated hpath,
        hpath, hneeds, .inl hkey⟩
  · rintro ⟨x, s', found, hturn, hfind, hpath, hneeds, hcase⟩
    have hlocated : Located J P t all x s' found := located_of_find hfind
    by_cases hallowed : Allowed P s' found.sysfsPath
    · obtain ⟨behalf, hint, hdisabled⟩ := (h.enforces.disables_iff (hprobe s'.world)).mpr
        ⟨found, hlocated, hneeds, hallowed, hpath⟩
      exact .inl ⟨behalf, hint, (hissued _ id).mpr ⟨x, s', hturn, hdisabled⟩⟩
    · have hkey : x.key = entry.key := hcase.resolve_right fun h => hallowed (hpath ▸ h)
      refine .inr ⟨x, s', hturn, ⟨found, hlocated, hpath⟩, hpath ▸ hallowed,
        (h.enforces.suspends_iff (hprobe _)).mpr ⟨found, hlocated, hneeds, hallowed, hkey⟩,
        ?_⟩
      rw [h.suspends x s' found hlocated hneeds (hprobe _) hallowed, ← hkey]
      refine marked_of_suspended ?_
      -- the keys have not changed since the loop began
      have hkeys : s'.entries.map (·.key) = s.entries.map (·.key) :=
        hturn.keeps (K := fun s' => s'.entries.map (·.key) = s.entries.map (·.key))
          (fun x s' hs' => (h.keys x s').trans hs') rfl
      have hmem : x.key ∈ s'.entries.map (·.key) := hkeys ▸ List.mem_map_of_mem hturn.mem
      exact List.mem_map.mp hmem

end Turn

theorem state_located {α : Type} {f : Option Device → Prog daemon α}
    (h : Located J P t all entry s device) :
    (run (respond J P t) (locate all entry >>= f) s).state =
      (run (respond J P t) (f (some device)) s).state := by
  rw [run_bind, Ran.andThen, show _ = _ from h, run_locate_state]

theorem state_suspend {α : Type} {key : DeviceKey} {f : Result Unit → Prog daemon α}
    (hf : ∀ result s, (run (respond J P t) (f result) s).state = s) :
    (run (respond J P t) ((setGuardSuspended key true).run >>= f) s).state =
      (respond J P t (.setGuardSuspended key true) s).2 := by
  have hstep : run (respond J P t) (setGuardSuspended key true).run s =
      (run (respond J P t) (call (S := daemon) (.setGuardSuspended key true)) s).andThen
        fun result s' =>
        run (respond J P t) (orRaise result) s' := run_bind _
  rw [run_bind, hstep, run_call]
  simp only [Ran.andThen]
  cases (respond J P t (.setGuardSuspended key true) s).1 with
  | none => rfl
  | some result => exact hf result _

def KeepsKeys (J : Json.Codec) (P : Platform W) (t : Thread) (o : Op) : Prop :=
  ∀ s : State W, (respond J P t o s).2.entries.map (·.key) = s.entries.map (·.key)

theorem keepsKeys_of_reads {o : Op} (h : o.Reads) : KeepsKeys J P t o := fun s => by
  rw [respond_reads J P o s h]

theorem keys_of_only {α : Type} {p : Prog daemon α} (h : Only (KeepsKeys J P t) p) (s : State W) :
    (run (respond J P t) p s).state.entries.map (·.key) = s.entries.map (·.key) :=
  run_keeps (K := fun s' => s'.entries.map (·.key) = s.entries.map (·.key)) _ h
    (fun _ s' ho hs' => (ho s').trans hs') rfl

theorem takesTurns_sweepEntry : TakesTurns J P t all (sweepEntry all) where
  enforces := enforces_sweepEntry
  suspends entry s device hlocated hneeds hprobe hrefused := by
    rw [sweepEntry, state_located hlocated]
    dsimp only
    rw [maybeReapply_eq, run_behindGuard_refused hneeds hprobe hrefused]
    exact state_suspend fun _ _ => rfl
  keys entry s :=
    keys_of_only (only_sweepEntry (keepsKeys_of_reads (.inr (.inl rfl))) (fun _ => rfl)
      (fun _ => rfl) (fun _ _ _ => rfl) (fun _ _ _ => updateEntry_map J P fun _ => rfl)
      (fun _ _ _ => updateEntry_map J P fun _ => rfl)
      (fun _ ho => keepsKeys_of_reads (.inl ho)) all entry) s

theorem takesTurns_reApplyEntry : TakesTurns J P t all (reApplyEntry all) where
  enforces := enforces_reApplyEntry
  suspends entry s device hlocated hneeds hprobe hrefused := by
    have hone : (run (respond J P t) (reApplyOne entry device) s).state =
        (respond J P t (.setGuardSuspended entry.key true) s).2 := by
      rw [reApplyOne_eq, run_behindGuard_refused hneeds hprobe hrefused]
      exact state_suspend fun result _ => by cases result <;> rfl
    rw [reApplyEntry, state_located hlocated]
    dsimp only
    rw [run_bind, Ran.andThen]
    split
    · exact hone
    · exact hone
  keys entry s := keys_of_only (only_reApplyEntry (fun _ ho => keepsKeys_of_reads (.inl ho))
    (keepsKeys_of_reads (.inr (.inl rfl))) (fun _ _ _ => rfl)
    (fun _ _ _ => updateEntry_map J P fun _ => rfl)
    (fun _ _ _ => updateEntry_map J P fun _ => rfl) all entry) s

theorem present_eq (henumerate : P.enumerate s.world = .ok all) : present P s = all := by
  rw [present, henumerate]
  rfl

theorem mem_issued_present (o : Op) (ho : ¬ o.Minor) :
    o ∈ (run (respond J P t) sweep s).issued ↔ ∃ x s',
      Turn (respond J P t) (sweepEntry (present P s)) s.entries s x s' ∧
      o ∈ (run (respond J P t) (sweepEntry (present P s) x) s').issued := by
  have hcall : run (respond J P t) entries s = ⟨[.entries], some s.entries, s⟩ := rfl
  have henumerates : (.enumerate : Op) ≠ o := fun h => ho (h ▸ trivial)
  have hentries : (.entries : Op) ≠ o := fun h => ho (h ▸ trivial)
  rw [mem_issued_iff, sweep, all_bind_single run_enumerated, all_bind_single hcall,
    and_iff_right henumerates, and_iff_right hentries, ← mem_issued_iff, mem_issued_forEach]

theorem sameEnd_sweep : (run (respond J P t) sweep s).SameEnd
    (run (respond J P t) (forEach s.entries (sweepEntry (present P s))) s) := by
  have hcall : run (respond J P t) entries s = ⟨[.entries], some s.entries, s⟩ := rfl
  rw [sweep, run_bind, run_enumerated]
  simp only [Ran.andThen]
  rw [run_bind, hcall]
  exact ⟨rfl, rfl⟩

theorem mem_issued_sweep (henumerate : P.enumerate s.world = .ok all) (o : Op) (ho : ¬ o.Minor) :
    o ∈ (run (respond J P t) sweep s).issued ↔ ∃ x s',
      Turn (respond J P t) (sweepEntry all) s.entries s x s' ∧
      o ∈ (run (respond J P t) (sweepEntry all x) s').issued := by
  rw [mem_issued_present o ho, present_eq henumerate]

theorem mem_issued_reApplyRestored (henumerate : P.enumerate s.world = .ok all) (o : Op)
    (ho : ¬ o.Minor) :
    o ∈ (run (respond J P t) reApplyRestored s).issued ↔ ∃ x s',
      Turn (respond J P t) (reApplyEntry all) s.entries s x s' ∧
      o ∈ (run (respond J P t) (reApplyEntry all x) s').issued := by
  have hcall : run (respond J P t) entries s = ⟨[.entries], some s.entries, s⟩ := rfl
  have henumerates : (.enumerate : Op) ≠ o := fun h => ho (h ▸ trivial)
  have hentries : (.entries : Op) ≠ o := fun h => ho (h ▸ trivial)
  rw [mem_issued_iff, reApplyRestored, all_bind_single run_enumerated, all_bind_single hcall,
    and_iff_right henumerates, and_iff_right hentries, present_eq henumerate, ← mem_issued_iff,
    mem_issued_collect]

variable (J P)

/-- Every enumerated device that an entry matches, and that is not in the state the entry asks for,
is covered by the sweep, and by the re-apply step of a restore, exactly when a turn reaches it. -/
theorem enforcement_covers_iff (hprobe : ∀ w, P.probeError w = none) {s : State W}
    {all : List Device} (henumerate : P.enumerate s.world = .ok all) :
    ((∀ device ∈ all, ∀ entry ∈ s.entries, matchesDevice entry.key device = true →
        needsApply entry device = true → Covered J P .bus all (sweepEntry all) s
          (run (respond J P .bus) sweep s).issued entry device) ↔
      ∀ device ∈ all, ∀ entry ∈ s.entries, matchesDevice entry.key device = true →
        needsApply entry device = true → Reached J P .bus all (sweepEntry all) s entry device) ∧
    ((∀ device ∈ all, ∀ entry ∈ s.entries, matchesDevice entry.key device = true →
        needsApply entry device = true → Covered J P .bus all (reApplyEntry all) s
          (run (respond J P .bus) reApplyRestored s).issued entry device) ↔
      ∀ device ∈ all, ∀ entry ∈ s.entries, matchesDevice entry.key device = true →
        needsApply entry device = true →
        Reached J P .bus all (reApplyEntry all) s entry device) := by
  constructor
  · exact forall₄_congr fun device hdevice entry _ => imp_congr_right fun _ =>
      imp_congr_right fun _ =>
        covered_iff_reached takesTurns_sweepEntry hprobe (mem_issued_sweep henumerate) hdevice
  · exact forall₄_congr fun device hdevice entry _ => imp_congr_right fun _ =>
      imp_congr_right fun _ =>
        covered_iff_reached takesTurns_reApplyEntry hprobe
          (mem_issued_reApplyRestored henumerate) hdevice

section Runs
open Bench

theorem sweep_covers_keyboard : Covered Json.reference platform .bus twoKeyboards.devices
    (sweepEntry twoKeyboards.devices) (idle twoKeyboards [keyboardEntry "1-4"])
    (run (respond Json.reference platform .bus) sweep
      (idle twoKeyboards [keyboardEntry "1-4"])).issued
    (keyboardEntry "1-4") (keyboard "1-4") := by
  have hiff := enforcement_covers_iff Json.reference platform (fun _ => rfl)
    (s := idle twoKeyboards [keyboardEntry "1-4"]) rfl
  refine hiff.1.mpr (fun device hdevice entry hentry hmatches _ => ?_) (keyboard "1-4") (by decide)
    (keyboardEntry "1-4") (by decide) (by decide) (by decide)
  obtain rfl : entry = keyboardEntry "1-4" := List.mem_singleton.mp hentry
  have hdevice : device = keyboard "1-4" := by
    rcases List.mem_pair.mp hdevice with rfl | rfl
    · exact absurd hmatches (by decide)
    · rfl
  subst hdevice
  exact ⟨keyboardEntry "1-4", _, keyboard "1-4", .now .., by decide, rfl, by decide, .inl rfl⟩

def clones : List Device := [mouse "1-3", mouse "1-4"]

theorem sweep_misses_clone : ¬ ∀ device ∈ clones, ∀ entry ∈ [mouseEntry "1-3"],
    matchesDevice entry.key device = true → needsApply entry device = true →
      Covered Json.reference platform .bus clones (sweepEntry clones)
        (idle ⟨clones, [], []⟩ [mouseEntry "1-3"])
        (run (respond Json.reference platform .bus) sweep
          (idle ⟨clones, [], []⟩ [mouseEntry "1-3"])).issued
        entry device := by
  intro hcovered
  have hclone :=
    hcovered (mouse "1-4") (by decide) (mouseEntry "1-3") (by decide) (by decide) (by decide)
  obtain ⟨x, s', found, hturn, hfind, hpath, _⟩ := (covered_iff_reached takesTurns_sweepEntry
    (fun _ => rfl) (mem_issued_sweep rfl) (by decide)).mp hclone
  obtain rfl : x = mouseEntry "1-3" := List.mem_singleton.mp hturn.mem
  obtain rfl : mouse "1-3" = found := Option.some.inj hfind
  exact absurd hpath (by decide)

end Runs

end DevMgr.Daemon
