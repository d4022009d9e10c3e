import DevMgr.Daemon.Bench
import DevMgr.Daemon.Concurrency

/-!
# One entry for one device

The store keeps one entry for one key, and two keys may recognise the same
device. From an empty store no device has two entries as long as every entry
that is recorded fits those that are there.
-/

open DevMgr.Core

namespace DevMgr.Daemon
open Bytes Program

variable {W : Type}

def Distinct (entries : List DisabledDeviceEntry) : Prop :=
  entries.Pairwise fun e e' => ¬ Overlaps e.key e'.key

/-- The key is there already, or it is apart from every key that is there. -/
def Fits (key : DeviceKey) (entries : List DisabledDeviceEntry) : Prop :=
  (∃ e ∈ entries, e.key = key) ∨ ∀ e ∈ entries, Apart e.key key

theorem Distinct.matching_le_one {entries : List DisabledDeviceEntry} (h : Distinct entries)
    (device : Device) : (entries.filter fun e => matchesDevice e.key device).length ≤ 1 := by
  have hpairs := h.filter fun e : DisabledDeviceEntry => matchesDevice e.key device
  have hall : ∀ e ∈ entries.filter fun e => matchesDevice e.key device,
      matchesDevice e.key device = true := fun e he => (List.mem_filter.mp he).2
  generalize entries.filter (fun e => matchesDevice e.key device) = matching at hpairs hall ⊢
  match matching, hpairs, hall with
  | [], _, _ => exact Nat.zero_le 1
  | [e], _, _ => exact le_rfl
  | e :: e' :: rest, hpairs, hall =>
    have hapart := (List.pairwise_cons.mp hpairs).1 e' (List.mem_cons_self ..)
    exact absurd ⟨device, hall e (by simp), hall e' (by simp)⟩ hapart

theorem distinct_iff_keys {entries : List DisabledDeviceEntry} :
    Distinct entries ↔ (entries.map (·.key)).Pairwise fun key key' => ¬ Overlaps key key' :=
  Iff.symm List.pairwise_map

theorem Distinct.of_keys {entries entries' : List DisabledDeviceEntry} (h : Distinct entries)
    (hkeys : (entries'.map (·.key)).Sublist (entries.map (·.key))) : Distinct entries' :=
  distinct_iff_keys.mpr ((distinct_iff_keys.mp h).sublist hkeys)

theorem Distinct.of_keys_eq {entries entries' : List DisabledDeviceEntry} (h : Distinct entries)
    (hkeys : entries'.map (·.key) = entries.map (·.key)) : Distinct entries' :=
  h.of_keys (hkeys ▸ List.Sublist.refl _)

theorem Distinct.upsert {entry : DisabledDeviceEntry} {entries : List DisabledDeviceEntry}
    (h : Distinct entries) (hfits : Fits entry.key entries) :
    Distinct (StateStore.upsert entry entries) := by
  unfold StateStore.upsert
  cases hupdate : StateStore.update entry.key (fun _ => entry) entries with
  | some entries' =>
    have hkeys := update_map (g := (·.key)) (fun e he => he.symm) hupdate
    exact h.of_keys_eq hkeys
  | none =>
    have hnew : ∀ e ∈ entries, ¬ Overlaps e.key entry.key := by
      rcases hfits with hthere | hnew
      · have hsome := update_isSome (f := fun _ => entry) hthere
        rw [hupdate] at hsome
        exact absurd hsome (by simp)
      · exact fun e he => apart_iff.mp (hnew e he)
    exact List.pairwise_append.mpr ⟨h, List.pairwise_singleton _ _, fun e he e' he' =>
      List.mem_singleton.mp he' ▸ hnew e he⟩

def Op.Keeps (o : Op) : Prop := ∀ entries, o ≠ .replaceAll entries

section Change
variable (J : Json.Codec) (P : Platform W) {t : Thread} {s : State W}

theorem Distinct.respond {o : Op} (h : Distinct s.entries) (ho : o.Keeps)
    (hfits : ∀ entry, o = .upsert entry → Fits entry.key s.entries) :
    Distinct (respond J P t o s).2.entries := by
  cases o with
  | upsert entry =>
    change Distinct (s.save J P _).2.entries
    rw [save_entries]
    exact h.upsert (hfits entry rfl)
  | remove key =>
    change Distinct (s.save J P _).2.entries
    rw [save_entries]
    exact h.of_keys (List.filter_sublist.map _)
  | replaceAll entries => exact absurd rfl (ho entries)
  | setGuardSuspended key suspended => exact h.of_keys_eq (updateEntry_map J P fun _ => rfl)
  | setLastSysfsPath key path => exact h.of_keys_eq (updateEntry_map J P fun _ => rfl)
  | _ => exact h

end Change

section Runs
variable (J : Json.Codec) (P : Platform W) (sysfsRoot : Str)

def Starts : Thread → Prog daemon Unit → Prop
  | .bus, p => p = sweep ∨
      ∃ caller path enabled, p = serve sysfsRoot (.setDeviceEnabled caller path enabled)
  | .monitor, p => ∃ event, p = onHotplug event

/-- A step of the run: devices come and go as they like, and an entry that is recorded fits. -/
structure RecordsApart (c : Config daemon Thread (State W)) (a : Action daemon Thread (State W))
    (_c' : Config daemon Thread (State W)) : Prop where
  starts : ∀ t p, a = .start t p → Starts sysfsRoot t p
  environment : ∀ s, a = .environment s → s.entries = c.shared.entries
  fits : ∀ t entry k, a = .step t → c.rest t = .op (.upsert entry) k →
      Fits entry.key c.shared.entries

structure Tidy (c : Config daemon Thread (State W)) : Prop where
  keeps : ∀ t, Only Op.Keeps (c.rest t)
  distinct : Distinct c.shared.entries

variable {J P sysfsRoot} {c c' : Config daemon Thread (State W)}
  {a : Action daemon Thread (State W)}

theorem keeps_starts {t : Thread} {p : Prog daemon Unit} (h : Starts sysfsRoot t p) :
    Only Op.Keeps p := by
  have hsees : ∀ o : Op, o.Sees → o.Keeps := by
    rintro o ho entries rfl
    exact ho
  cases t with
  | bus =>
    rcases h with rfl | ⟨caller, path, enabled, rfl⟩
    · exact only_sweep nofun nofun nofun nofun nofun nofun hsees
    · exact only_bind (only_setDeviceEnabled hsees nofun nofun nofun nofun nofun nofun nofun nofun)
        fun _ => only_pure _
  | monitor =>
    obtain ⟨event, rfl⟩ := h
    exact only_onHotplug nofun nofun nofun (fun _ _ => nofun) (fun _ _ => nofun) (fun _ _ => nofun)
      (fun _ => nofun) event

theorem tidy_step (h : Tidy c) (hstep : step J P c a = some c')
    (hc : RecordsApart sysfsRoot c a c') :
    Tidy c' := by
  cases a with
  | start t p =>
    simp only [step, take] at hstep
    split_ifs at hstep
    obtain rfl := Option.some.inj hstep
    refine ⟨fun u => ?_, h.distinct⟩
    by_cases hu : u = t
    · subst u
      simpa using keeps_starts (hc.starts t p rfl)
    · simpa [Function.update_of_ne hu] using h.keeps u
  | step t =>
    cases hrest : c.rest t with
    | pure a => simp [step, take, hrest] at hstep
    | raise => simp [step, take, hrest] at hstep
    | op o k =>
      simp only [step, take, hrest, Option.map_eq_some_iff] at hstep
      obtain ⟨⟨r, s'⟩, hhandle, rfl⟩ := hstep
      have hkeeps : Only Op.Keeps (.op o k) := hrest ▸ h.keeps t
      refine ⟨fun u => ?_, ?_⟩
      · by_cases hu : u = t
        · subst u
          simpa using (only_op.mp hkeeps).2 r
        · simpa [Function.update_of_ne hu] using h.keeps u
      · have hs' : s' = (respond J P t o c.shared).2 := handle_state hhandle
        rw [hs']
        refine h.distinct.respond J P hkeeps.1 fun entry ho => ?_
        subst ho
        exact hc.fits t entry k rfl hrest
  | environment s =>
    obtain rfl := Option.some.inj hstep
    refine ⟨h.keeps, ?_⟩
    have hentries := hc.environment s rfl
    exact hentries ▸ h.distinct

/-- From an empty store, every device has at most one entry. -/
theorem one_entry_per_device {s : State W} {actions : List (Action daemon Thread (State W))}
    (hempty : s.entries = []) (hrun : Run.runSome (step J P) (.initial s) actions = some c)
    (hmeets : Run.MeetsSome (step J P) (RecordsApart sysfsRoot) (.initial s) actions)
    (device : Device) :
    (c.shared.entries.filter fun e => matchesDevice e.key device).length ≤ 1 := by
  have hinitial : Tidy (W := W) (.initial s) :=
    ⟨fun _ => only_pure _, by rw [Config.initial, hempty]; exact .nil⟩
  have htidy : Tidy c :=
    Run.runSome_invariant (step J P) (fun _ _ _ => tidy_step) hinitial hrun hmeets
  exact htidy.distinct.matching_le_one device

end Runs

section Bench
open Bench

def startDisabling (port : String) : Action daemon Thread (State Bench) :=
  .start .bus (serve (str "/sys")
    (.setDeviceEnabled (str ":1.9") (str "/sys/devices/usb1/" ++ str port) false))

def disabling (port : String) : List (Action daemon Thread (State Bench)) :=
  startDisabling port :: List.replicate 15 (.step .bus)

def attached (devices : List Device) : Bench := ⟨devices, [], []⟩

def recordsElsewhere (c : Config daemon Thread (State Bench))
    (a : Action daemon Thread (State Bench)) (_c' : Config daemon Thread (State Bench)) : Bool :=
  match a, c.rest .bus with
  | .step .bus, .op (.upsert entry) _ => c.shared.entries.all fun e =>
      e.key.serial = [] ∧ entry.key.serial = [] ∧ e.key.position ≠ entry.key.position
  | .step .bus, _ => true
  | _, _ => false

theorem recordsApart_of_elsewhere {sysfsRoot : Str} {c c' : Config daemon Thread (State Bench)}
    {a : Action daemon Thread (State Bench)} (h : recordsElsewhere c a c' = true) :
    RecordsApart sysfsRoot c a c' := by
  unfold recordsElsewhere at h
  split at h
  · next entry k hrest =>
    refine ⟨nofun, nofun, fun t entry' k' ha hrest' => .inr fun e he => ?_⟩
    obtain rfl : Thread.bus = t := by simpa using ha
    obtain ⟨hentry, _⟩ := Prog.op.inj (hrest.symm.trans hrest')
    obtain rfl := Op.upsert.inj hentry
    have hplaces : e.key.serial = [] ∧ entry.key.serial = [] ∧
        e.key.position ≠ entry.key.position := by
      simpa using List.all_eq_true.mp h e he
    exact .inr (.inr (.inr (.inr (.inl hplaces))))
  · rename_i hnot
    refine ⟨nofun, nofun, fun t entry k ha hrest => ?_⟩
    obtain rfl : Thread.bus = t := by simpa using ha
    exact absurd hrest (hnot entry k)
  · exact absurd h (by simp)

def keyboardsAttached : Bench := attached [keyboard "1-3", keyboard "1-4"]

theorem meets_disabling {c : Config daemon Thread (State Bench)} {port : String}
    (h : (step Json.reference usbPlatform c (startDisabling port)).any fun c =>
      Run.passes (step Json.reference usbPlatform) recordsElsewhere c
        (List.replicate 15 (.step .bus))) :
    Run.MeetsSome (step Json.reference usbPlatform) (RecordsApart (str "/sys")) c
      (disabling port) := by
  obtain ⟨c', hstart, hpasses⟩ := (Option.any_eq_true _ _).mp h
  refine Run.meetsSome_cons _ hstart ⟨?_, nofun, nofun⟩
    (Run.meetsSome_of_passes _ (fun _ _ _ => recordsApart_of_elsewhere) hpasses)
  rintro t p heq
  obtain ⟨rfl, rfl⟩ := Action.start.inj heq
  exact .inr ⟨_, _, _, rfl⟩

theorem keyboards_recorded_once : ∃ c,
    Run.runSome (step Json.reference usbPlatform) (.initial (idle keyboardsAttached []))
      (disabling "1-3" ++ disabling "1-4") = some c ∧ c.shared.entries.length = 2 ∧
    (c.shared.entries.filter fun e => matchesDevice e.key (keyboard "1-4")).length ≤ 1 := by
  have hcheck : ((Run.runSome (step Json.reference usbPlatform)
      (.initial (idle keyboardsAttached [])) (disabling "1-3")).any fun c =>
      ((step Json.reference usbPlatform c (startDisabling "1-4")).any fun c =>
        Run.passes (step Json.reference usbPlatform) recordsElsewhere c
          (List.replicate 15 (.step .bus))) &&
      (Run.runSome (step Json.reference usbPlatform) c (disabling "1-4")).any fun c =>
        c.shared.entries.length = 2) = true := by
    decide +kernel
  obtain ⟨c, hfirst, hc⟩ := (Option.any_eq_true _ _).mp hcheck
  obtain ⟨hpasses, hsecond⟩ := (Bool.and_eq_true _ _).mp hc
  obtain ⟨c', hrun, hlength⟩ := (Option.any_eq_true _ _).mp hsecond
  have hboth := Run.runSome_append _ hfirst hrun
  have hmeets := Run.meetsSome_append _ (meets_disabling (by decide +kernel)) hfirst
    (meets_disabling hpasses)
  exact ⟨c', hboth, by simpa using hlength, one_entry_per_device rfl hboth hmeets _⟩

theorem mouse_recorded_twice : ∃ c c',
    Run.runSome (step Json.reference usbPlatform)
      (.initial (idle (attached [mouse "1-3"]) [])) (disabling "1-3") = some c ∧
    Run.runSome (step Json.reference usbPlatform) c
      (.environment { c.shared with world := attached [mouse "1-4"] } :: disabling "1-4") =
        some c' ∧
    mouse "1-4" ∈ (attached [mouse "1-4"]).devices ∧
    ¬ (c'.shared.entries.filter fun e => matchesDevice e.key (mouse "1-4")).length ≤ 1 := by
  have hcheck : ((Run.runSome (step Json.reference usbPlatform)
      (.initial (idle (attached [mouse "1-3"]) [])) (disabling "1-3")).any fun c =>
      (Run.runSome (step Json.reference usbPlatform) c
        (.environment { c.shared with world := attached [mouse "1-4"] } :: disabling "1-4")).any
        fun c' =>
      1 < (c'.shared.entries.filter fun e => matchesDevice e.key (mouse "1-4")).length) = true := by
    decide +kernel
  obtain ⟨c, hrun, hc⟩ := (Option.any_eq_true _ _).mp hcheck
  obtain ⟨c', hrun', hc'⟩ := (Option.any_eq_true _ _).mp hc
  exact ⟨c, c', hrun, hrun', List.mem_singleton_self _, by simpa using hc'⟩

end Bench

end DevMgr.Daemon
