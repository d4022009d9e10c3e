import DevMgr.Daemon.Bench
import DevMgr.Daemon.Durability
import DevMgr.Daemon.Machine

/-!
# The state file

The entries in memory change before they are written, and a write can give up at any
step, so memory can be ahead of the file, and the file a process sees can be ahead of what
is durable. Whatever a crash leaves of `state.json` is the complete document of a state
that memory had since the last operation that returned Ok.
-/

open DevMgr.Core

namespace DevMgr.Daemon
open Bytes

namespace StateStore

def parsed (J : Json.Codec) (content : Str) : Option (List DisabledDeviceEntry) :=
  match (J.parse content).bind fun doc => doc.member? (str "entries") with
  | some (.arr elements) => (elements.mapM entryFromJson).toOption
  | _ => none

def load (J : Json.Codec) (e : Env) (d : Directory) : List DisabledDeviceEntry × Directory :=
  match d[str "state.json"]? with
  | none => ([], d)
  | some content =>
    match parsed J content with
    | some entries => (entries, d)
    | none => ([], (quarantineFile e d (str "state.json")).2)

inductive Change where
  | upsert (entry : DisabledDeviceEntry)
  | remove (key : DeviceKey)
  | replaceAll (entries : List DisabledDeviceEntry)
  | setGuardSuspended (key : DeviceKey) (suspended : Bool)
  | setLastSysfsPath (key : DeviceKey) (path : Str)

namespace Change

def Text : Change → Prop
  | .upsert entry => (entryToJson entry).isText = true
  | .replaceAll entries => ∀ entry ∈ entries, (entryToJson entry).isText = true
  | .setLastSysfsPath _ path => validUtf8 path = true
  | .remove _ | .setGuardSuspended .. => True

def apply (entries : List DisabledDeviceEntry) : Change → Option (List DisabledDeviceEntry)
  | .upsert entry => some (StateStore.upsert entry entries)
  | .remove key => some (StateStore.remove key entries)
  | .replaceAll entries => some entries
  | .setGuardSuspended key suspended =>
    update key (fun e => { e with guardSuspended := suspended }) entries
  | .setLastSysfsPath key path => update key (fun e => { e with lastSysfsPath := path }) entries

variable {H : Type} (J : Json.Codec) (P : Platform H) (faults : ℕ → Faults) (t : Thread)

def respond (s : State (Machine H)) : Change → Option (Result Unit) × State (Machine H)
  | .upsert entry => Machine.respond J P faults t (.upsert entry) s
  | .remove key => Machine.respond J P faults t (.remove key) s
  | .replaceAll entries => Machine.respond J P faults t (.replaceAll entries) s
  | .setGuardSuspended key suspended =>
      Machine.respond J P faults t (.setGuardSuspended key suspended) s
  | .setLastSysfsPath key path => Machine.respond J P faults t (.setLastSysfsPath key path) s

def ops (s : State (Machine H)) (c : Change) : List DiskOp :=
  match c.apply s.entries with
  | none => []
  | some entries =>
    if (document entries).isText then
      writeOps (faults s.world.calls).stateWrite (str "state.json")
        (J.dumpIndented (document entries))
    else []

variable {J P faults t} {s : State (Machine H)} {c : Change} {entries : List DisabledDeviceEntry}

theorem respond_notFound (h : c.apply s.entries = none) :
    c.respond J P faults t s = (some (makeError .notFound (str "no entry for key")), s) := by
  cases c with
  | upsert | remove | replaceAll => exact absurd h (by simp [apply])
  | setGuardSuspended | setLastSysfsPath =>
    simp only [apply] at h
    simp only [respond, Machine.respond, Daemon.respond, State.updateEntry, h]

theorem respond_save (h : c.apply s.entries = some entries) :
    c.respond J P faults t s = s.save J (Machine.platform J P faults) entries := by
  cases c with
  | upsert | remove | replaceAll =>
    obtain rfl := Option.some.inj h
    rfl
  | setGuardSuspended | setLastSysfsPath =>
    simp only [apply] at h
    simp only [respond, Machine.respond, Daemon.respond, State.updateEntry, h]

end Change

end StateStore

def EntriesText (entries : List DisabledDeviceEntry) : Prop :=
  ∀ entry ∈ entries, (entryToJson entry).isText = true

theorem document_text {entries : List DisabledDeviceEntry} (h : EntriesText entries) :
    (StateStore.document entries).isText = true := by
  have hkeys : validUtf8 (str "entries") = true ∧ validUtf8 (str "version") = true := by decide
  have hentries : Json.isTextElements (entries.map entryToJson) = true :=
    (Json.isTextElements_iff _).mpr (List.forall_mem_map.mpr h)
  simp [StateStore.document, Json.isText, Json.isTextMembers, hkeys, hentries]

theorem entryText_path {e : DisabledDeviceEntry} {path : Str} (h : (entryToJson e).isText = true)
    (hpath : validUtf8 path = true) :
    (entryToJson { e with lastSysfsPath := path }).isText = true := by
  simp only [entryToJson, Json.isText, Json.isTextMembers, Bool.and_eq_true] at h ⊢
  simp only [h, hpath, and_true]

theorem entryText_suspended {e : DisabledDeviceEntry} (h : (entryToJson e).isText = true)
    (suspended : Bool) :
    (entryToJson { e with guardSuspended := suspended }).isText = true := h

theorem change_text {c : StateStore.Change} {entries entries' : List DisabledDeviceEntry}
    (hc : c.Text) (hentries : EntriesText entries) (h : c.apply entries = some entries') :
    EntriesText entries' := by
  cases c with
  | upsert entry =>
    obtain rfl := Option.some.inj h
    rw [StateStore.upsert]
    cases hupdate : StateStore.update entry.key (fun _ => entry) entries with
    | none => exact List.forall_mem_append.mpr ⟨hentries, List.forall_mem_singleton.mpr hc⟩
    | some changed => exact update_forall (fun _ _ => hc) hentries hupdate
  | remove key =>
    obtain rfl := Option.some.inj h
    exact fun e he => hentries e (List.mem_of_mem_filter he)
  | replaceAll new =>
    obtain rfl := Option.some.inj h
    exact hc
  | setGuardSuspended key suspended =>
    exact update_forall (fun e he => entryText_suspended (hentries e he) suspended) hentries h
  | setLastSysfsPath key path =>
    exact update_forall (fun e he => entryText_path (hentries e he) hc) hentries h

section Read
variable {J : Json.Codec} {e : Env} {entries : List DisabledDeviceEntry}

theorem document_canonical : (StateStore.document entries).Canonical := by
  refine ⟨keySorted_of_keys (by simp only [List.map]; decide),
    (Json.canonicalElements_iff _).mpr ?_,
    ⟨by decide, by decide⟩, trivial⟩
  exact List.forall_mem_map.mpr fun entry _ => entryToJson_canonical entry

theorem parsed_document (htext : (StateStore.document entries).isText = true) :
    StateStore.parsed J (J.dumpIndented (StateStore.document entries)) = some entries := by
  have hmember : (StateStore.document entries).member? (str "entries") =
      some (.arr (entries.map entryToJson)) := rfl
  rw [StateStore.parsed, J.parse_dumpIndented _ htext document_canonical, Option.bind_some, hmember]
  dsimp only
  rw [mapM_entryFromJson]
  rfl

def Holds (J : Json.Codec) (entries : List DisabledDeviceEntry) : Option (Disk.File Str) → Prop
  | none => entries = []
  | some f => f.synced = true ∧ StateStore.parsed J f.content = some entries

theorem load_of_leaves {b : Option (Disk.File Str)} {left : Directory} (hb : Holds J entries b)
    (hleaves : Disk.Leaves b left[str "state.json"]?) :
    StateStore.load J e left = (entries, left) := by
  rw [StateStore.load]
  generalize left[str "state.json"]? = content at hleaves
  cases hleaves with
  | missing =>
    obtain rfl : entries = [] := hb
    rfl
  | synced c => simp only [hb.2]
  | torn c c' => exact absurd hb.1 (by simp)

theorem holds_of_load {d : Directory} (h : StateStore.load J .quiet d = (entries, d)) :
    Holds J entries (d[str "state.json"]?.map (⟨·, true⟩)) := by
  rw [StateStore.load] at h
  cases hfile : d[str "state.json"]? with
  | none =>
    rw [hfile] at h
    exact (congrArg Prod.fst h).symm
  | some content =>
    rw [hfile] at h
    cases hparsed : StateStore.parsed J content with
    | some loaded =>
      simp only [hparsed] at h
      obtain rfl : loaded = entries := congrArg Prod.fst h
      exact ⟨rfl, hparsed⟩
    | none =>
      -- the quarantine would have taken the file away
      simp only [hparsed] at h
      have hgone := congrArg (fun r => r.2[str "state.json"]?) h
      simp only [quarantineFile, hfile] at hgone
      have hfresh := quarantineName_not_mem .quiet d (str "state.json")
      have hne : quarantineName .quiet d (str "state.json") ≠ str "state.json" := by
        intro heq
        rw [heq, Std.ExtTreeMap.mem_iff_isSome_getElem?, hfile] at hfresh
        exact hfresh rfl
      have hrenames : Env.quiet.renames (str "state.json") = true := rfl
      simp [hrenames, hne] at hgone

end Read

/-- A daemon and the disk its state directory is on. -/
structure Stored (H : Type) where
  state : State (Machine H)
  disk : Volume
  shows : Shows disk state.world.stateDir

namespace Stored
variable {H : Type} (J : Json.Codec) (P : Platform H) (faults : ℕ → Faults) (t : Thread)

theorem shows_change (s : Stored H) (c : StateStore.Change) :
    Shows (Disk.run (c.ops J faults s.state) s.disk)
      (c.respond J P faults t s.state).2.world.stateDir := by
  rw [StateStore.Change.ops]
  cases happly : c.apply s.state.entries with
  | none =>
    rw [StateStore.Change.respond_notFound happly]
    exact s.shows
  | some entries =>
    rw [StateStore.Change.respond_save happly, State.save]
    dsimp only
    by_cases htext : (StateStore.document entries).isText = true
    · simp only [htext, not_true_eq_false, if_false, if_true]
      exact shows_write _ _ s.shows
    · simp only [htext]
      exact s.shows

def change (s : Stored H) (c : StateStore.Change) : Stored H where
  state := (c.respond J P faults t s.state).2
  disk := Disk.run (c.ops J faults s.state) s.disk
  shows := s.shows_change J P faults t c

def changes (s : Stored H) (cs : List StateStore.Change) : Stored H :=
  cs.foldl (change J P faults t) s

def returned (s : Stored H) (cs : List StateStore.Change) (j : ℕ) :
    Option (Option (Result Unit)) :=
  cs[j]?.map fun c => (c.respond J P faults t (s.changes J P faults t (cs.take j)).state).1

def crashed (s : Stored H) (cs : List StateStore.Change) (m k : ℕ) : Volume :=
  let s' := s.changes J P faults t (cs.take m)
  match cs[m]? with
  | some c => Disk.run ((c.ops J faults s'.state).take k) s'.disk
  | none => s'.disk

variable {J P faults t} {s : Stored H} {c : StateStore.Change} {cs : List StateStore.Change}

theorem writeState_ok_iff {w : Machine H} {content : Str} :
    (Machine.writeState faults w content).1 = .ok () ↔ (faults w.calls).stateWrite = none := by
  rcases atomicWriteFile_cases
    (e := { (faults w.calls).snapshots with dir := str "/var/lib/devmgrd" })
    (faults w.calls).stateWrite w.stateDir (str "state.json") content
    with ⟨_, r, hr, hok⟩ | ⟨hlands, error, d', herror, _⟩
  · rw [← hok, Machine.writeState, hr]
  · rw [Machine.writeState, herror]
    refine ⟨nofun, fun h => ?_⟩
    rw [h] at hlands
    exact absurd hlands (by decide)

theorem change_entries (s : Stored H) (c : StateStore.Change) :
    (s.change J P faults t c).state.entries = (c.apply s.state.entries).getD s.state.entries := by
  change (c.respond J P faults t s.state).2.entries = _
  cases happly : c.apply s.state.entries with
  | none =>
    rw [StateStore.Change.respond_notFound happly]
    rfl
  | some entries =>
    rw [StateStore.Change.respond_save happly, save_entries]
    rfl

theorem text_change (hc : c.Text) (hs : EntriesText s.state.entries) :
    EntriesText (s.change J P faults t c).state.entries := by
  rw [change_entries]
  cases happly : c.apply s.state.entries with
  | none => exact hs
  | some entries => exact change_text hc hs happly

/-- One of the states that `M` allows is read back. -/
def Recovers (J : Json.Codec) (M : List DisabledDeviceEntry → Prop) : Volume → Prop :=
  Disk.Within (fun b => ∃ entries, M entries ∧ Holds J entries b) (str "state.json")

theorem Recovers.imp {M N : List DisabledDeviceEntry → Prop} {disk : Volume} (h : Recovers J M disk)
    (hMN : ∀ entries, M entries → N entries) : Recovers J N disk :=
  Disk.Within.imp h fun _ ⟨entries, hM, hholds⟩ => ⟨entries, hMN entries hM, hholds⟩

theorem along_change {M : List DisabledDeviceEntry → Prop} (hc : c.Text)
    (hs : EntriesText s.state.entries) (h : Recovers J M s.disk) :
    Disk.Along (Recovers J fun entries => M entries ∨
      entries = (s.change J P faults t c).state.entries)
      (c.ops J faults s.state) s.disk := by
  have hold : Recovers J (fun entries => M entries ∨
      entries = (s.change J P faults t c).state.entries) s.disk :=
    h.imp fun _ => .inl
  rw [StateStore.Change.ops]
  cases happly : c.apply s.state.entries with
  | none => exact hold
  | some entries =>
    have htext := document_text (change_text hc hs happly)
    have hnew : (s.change J P faults t c).state.entries = entries := by
      rw [change_entries, happly]; rfl
    simp only [htext, if_true]
    exact along_write _ hold ⟨entries, .inr hnew.symm, rfl, parsed_document htext⟩

theorem change_settles (hc : c.Text) (hs : EntriesText s.state.entries)
    (hok : (c.respond J P faults t s.state).1 = some (.ok ())) :
    Recovers J (· = (s.change J P faults t c).state.entries) (s.change J P faults t c).disk := by
  cases happly : c.apply s.state.entries with
  | none =>
    rw [StateStore.Change.respond_notFound happly] at hok
    exact absurd (Option.some.inj hok) (by simp [makeError])
  | some entries =>
    have htext := document_text (change_text hc hs happly)
    have hnew : (s.change J P faults t c).state.entries = entries := by
      rw [change_entries, happly]; rfl
    have hfault : (faults s.state.world.calls).stateWrite = none := by
      rw [StateStore.Change.respond_save happly, State.save] at hok
      simp only [htext, not_true_eq_false, if_false] at hok
      exact writeState_ok_iff.mp (Option.some.inj hok)
    have hdisk : (s.change J P faults t c).disk =
        Disk.run (writeOps none (str "state.json") (J.dumpIndented (StateStore.document entries)))
          s.disk := by
      change Disk.run (c.ops J faults s.state) s.disk = _
      rw [StateStore.Change.ops, happly]
      simp only [htext, if_true, hfault]
    rw [hdisk, hnew]
    refine (settled_write _).imp fun b hb => ⟨entries, rfl, ?_⟩
    rw [hb, now_write]
    exact ⟨rfl, parsed_document htext⟩

theorem changes_take_succ (m : ℕ) (hm : cs[m]? = some c) :
    s.changes J P faults t (cs.take (m + 1)) =
      (s.changes J P faults t (cs.take m)).change J P faults t c := by
  rw [changes, List.take_add_one, hm, List.foldl_append]
  rfl

theorem text_changes (hcs : ∀ c ∈ cs, c.Text) (hs : EntriesText s.state.entries) :
    EntriesText (s.changes J P faults t cs).state.entries := by
  induction cs generalizing s with
  | nil => exact hs
  | cons c cs ih =>
    obtain ⟨hc, hcs⟩ := List.forall_mem_cons.mp hcs
    exact ih hcs (text_change hc hs)

def Since (J : Json.Codec) (P : Platform H) (faults : ℕ → Faults) (t : Thread) (s : Stored H)
    (cs : List StateStore.Change) (m : ℕ) (entries : List DisabledDeviceEntry) : Prop :=
  ∃ i ≤ m, entries = (s.changes J P faults t (cs.take i)).state.entries ∧
    ∀ j, i ≤ j → j < m → s.returned J P faults t cs j ≠ some (some (.ok ()))

theorem since_now (m : ℕ) :
    Since J P faults t s cs m (s.changes J P faults t (cs.take m)).state.entries :=
  ⟨m, le_rfl, rfl, fun _ hij hjm => absurd hjm (Nat.not_lt.mpr hij)⟩

theorem recovers_changes (hcs : ∀ c ∈ cs, c.Text) (hs : EntriesText s.state.entries)
    (h : Recovers J (· = s.state.entries) s.disk) (m : ℕ) :
    Recovers J (Since J P faults t s cs m) (s.changes J P faults t (cs.take m)).disk := by
  induction m with
  | zero =>
    refine h.imp ?_
    rintro _ rfl
    exact since_now 0
  | succ m ih =>
    cases hm : cs[m]? with
    | none =>
      -- the run is over
      have htake : cs.take (m + 1) = cs.take m := by rw [List.take_add_one, hm]; simp
      rw [htake]
      refine ih.imp fun entries ⟨i, hi, hentries, hreturned⟩ =>
        ⟨i, by omega, hentries, fun j hij hj => ?_⟩
      rcases Nat.lt_succ_iff_lt_or_eq.mp hj with hlt | rfl
      · exact hreturned j hij hlt
      · simp [returned, hm]
    | some c =>
      have hc := hcs c (List.mem_of_getElem? hm)
      have htext := @text_changes _ J P faults t _ (cs.take m)
          (fun c hc => hcs c (List.mem_of_mem_take hc)) hs
      have hreturned : s.returned J P faults t cs m =
          some (c.respond J P faults t (s.changes J P faults t (cs.take m)).state).1 := by
        rw [returned, hm]
        rfl
      rw [changes_take_succ m hm]
      by_cases hok : (c.respond J P faults t (s.changes J P faults t (cs.take m)).state).1 =
          some (.ok ())
      · refine (change_settles hc htext hok).imp ?_
        rintro _ rfl
        rw [← changes_take_succ m hm]
        exact since_now (m + 1)
      · refine (along_change (P := P) (t := t) hc htext ih).last.imp ?_
        rintro entries (⟨i, hi, hentries, hbefore⟩ | rfl)
        · refine ⟨i, by omega, hentries, fun j hij hj => ?_⟩
          rcases Nat.lt_succ_iff_lt_or_eq.mp hj with hlt | rfl
          · exact hbefore j hij hlt
          · rw [hreturned]
            exact fun heq => hok (Option.some.inj heq)
        · rw [← changes_take_succ m hm]
          exact since_now (m + 1)

theorem recovers_crashed (hcs : ∀ c ∈ cs, c.Text) (hs : EntriesText s.state.entries)
    (h : Recovers J (· = s.state.entries) s.disk) (m k : ℕ) :
    Recovers J (fun entries => ∃ i ≤ m + 1,
      entries = (s.changes J P faults t (cs.take i)).state.entries ∧
      ∀ j, i ≤ j → j < m → s.returned J P faults t cs j ≠ some (some (.ok ())))
      (s.crashed J P faults t cs m k) := by
  have hrun := @recovers_changes _ _ P faults t _ _ hcs hs h m
  rw [crashed]
  cases hm : cs[m]? with
  | none => exact hrun.imp fun entries ⟨i, hi, hentries⟩ => ⟨i, by omega, hentries⟩
  | some c =>
    have htext :=
      @text_changes _ J P faults t _ (cs.take m) (fun c hc => hcs c (List.mem_of_mem_take hc)) hs
    refine ((along_change (P := P) (t := t) (hcs c (List.mem_of_getElem? hm)) htext hrun).take
      k).imp ?_
    rintro entries (⟨i, hi, hentries⟩ | rfl)
    · exact ⟨i, by omega, hentries⟩
    · rw [← changes_take_succ m hm]
      exact ⟨m + 1, le_rfl, rfl, fun j hij hj => by omega⟩

theorem change_quiet (hc : c.Text) (hs : EntriesText s.state.entries)
    (hquiet : ∀ n, (faults n).stateWrite = none) (h : Recovers J (· = s.state.entries) s.disk) :
    Recovers J (· = (s.change J P faults t c).state.entries) (s.change J P faults t c).disk := by
  cases happly : c.apply s.state.entries with
  | none =>
    have hdisk : (s.change J P faults t c).disk = s.disk := by
      change Disk.run (c.ops J faults s.state) s.disk = _
      rw [StateStore.Change.ops, happly]
      rfl
    rw [hdisk, change_entries, happly]
    exact h
  | some entries =>
    have htext := document_text (change_text hc hs happly)
    refine change_settles hc hs ?_
    rw [StateStore.Change.respond_save happly, State.save]
    simp only [htext, not_true_eq_false, if_false]
    exact congrArg some (writeState_ok _ (hquiet _))

theorem recovers_quiet (hcs : ∀ c ∈ cs, c.Text) (hs : EntriesText s.state.entries)
    (hquiet : ∀ n, (faults n).stateWrite = none) (h : Recovers J (· = s.state.entries) s.disk) :
    Recovers J (· = (s.changes J P faults t cs).state.entries)
      (s.changes J P faults t cs).disk := by
  induction cs generalizing s with
  | nil => exact h
  | cons c cs ih =>
    obtain ⟨hc, hcs⟩ := List.forall_mem_cons.mp hcs
    exact ih hcs (text_change hc hs) (change_quiet hc hs hquiet h)

theorem load_recovers {e : Env} {M : List DisabledDeviceEntry → Prop} {disk : Volume}
    {left : Directory}
    (h : Recovers J M disk) (hleft : disk.Survives fun name : Str => left[name]?) :
    ∃ entries, M entries ∧ StateStore.load J e left = (entries, left) := by
  obtain ⟨b, ⟨entries, hM, hholds⟩, hleaves⟩ := hleft.leaves h
  exact ⟨entries, hM, load_of_leaves hholds hleaves⟩

theorem recovers_open (hrest : s.disk = .rest fun name : Str => s.state.world.stateDir[name]?)
    (hopen : StateStore.load J .quiet s.state.world.stateDir = (s.state.entries,
      s.state.world.stateDir)) :
    Recovers J (· = s.state.entries) s.disk := by
  rw [hrest]
  exact Disk.within_rest.mpr ⟨_, rfl, holds_of_load hopen⟩

theorem load_after_crash
    (hrest : s.disk = .rest fun name : Str => s.state.world.stateDir[name]?)
    (hopen : StateStore.load J .quiet s.state.world.stateDir = (s.state.entries,
      s.state.world.stateDir))
    (hs : EntriesText s.state.entries) (hcs : ∀ c ∈ cs, c.Text) :
    (∀ m k left, (s.crashed J P faults t cs m k).Survives (fun name : Str => left[name]?) →
      ∃ i ≤ m + 1, (∀ j, i ≤ j → j < m →
        s.returned J P faults t cs j ≠ some (some (.ok ()))) ∧
        ∀ e, StateStore.load J e left = ((s.changes J P faults t (cs.take i)).state.entries,
          left)) ∧
    ((∀ n, (faults n).stateWrite = none) → ∀ e,
      StateStore.load J e (s.changes J P faults t cs).state.world.stateDir =
        ((s.changes J P faults t cs).state.entries,
          (s.changes J P faults t cs).state.world.stateDir)) := by
  have hstart := recovers_open hrest hopen
  refine ⟨fun m k left hleft => ?_, fun hquiet e => ?_⟩
  · obtain ⟨b, ⟨entries, ⟨i, hi, rfl, hreturned⟩, hholds⟩, hleaves⟩ :=
      hleft.leaves (recovers_crashed hcs hs hstart m k)
    exact ⟨i, hi, hreturned, fun e => load_of_leaves hholds hleaves⟩
  · have hshows := (s.changes J P faults t cs).shows
    have hleft : (s.changes J P faults t cs).disk.Survives
        fun name : Str => (s.changes J P faults t cs).state.world.stateDir[name]? := by
      simp only [← hshows _]
      exact Disk.survives_shows _
    obtain ⟨entries, rfl, hload⟩ :=
      load_recovers (e := e) (recovers_quiet hcs hs hquiet hstart) hleft
    exact hload

def empty : Stored Bench where
  state := ⟨⟨Bench.twoKeyboards, ∅, ∅, ∅, [], 0⟩, [], none⟩
  disk := .rest fun name : Str => (∅ : Directory)[name]?
  shows := shows_rest ∅

def twoUpserts : List StateStore.Change :=
  [.upsert (Bench.keyboardEntry "1-3"), .upsert (Bench.keyboardEntry "1-4")]

theorem load_after_upserts :
    (StateStore.load Json.reference .quiet
        (empty.changes Json.reference Bench.platform
          (fun _ => .none) .bus twoUpserts).state.world.stateDir).1 =
      [Bench.keyboardEntry "1-3", Bench.keyboardEntry "1-4"] ∧
    (∀ m k left,
      (empty.crashed Json.reference Bench.platform (fun _ => .none) .bus twoUpserts m k).Survives
        (fun name : Str => left[name]?) →
      ∃ i ≤ m + 1,
        (∀ j, i ≤ j → j < m →
          empty.returned Json.reference Bench.platform (fun _ => .none) .bus twoUpserts j ≠
            some (some (.ok ()))) ∧
        ∀ e, StateStore.load Json.reference e left =
          ((empty.changes Json.reference Bench.platform (fun _ => .none) .bus
            (twoUpserts.take i)).state.entries,
            left)) := by
  have htext : ∀ c ∈ twoUpserts, c.Text := by
    simp only [twoUpserts, List.forall_mem_cons]
    refine ⟨?_, ?_, nofun⟩
    · change (entryToJson (Bench.keyboardEntry "1-3")).isText = true
      decide
    · change (entryToJson (Bench.keyboardEntry "1-4")).isText = true
      decide
  have hnone : EntriesText empty.state.entries := fun entry hentry => absurd hentry List.not_mem_nil
  obtain ⟨hcrashed, hquiet⟩ :=
    @load_after_crash _ Json.reference Bench.platform (fun _ => .none) .bus empty twoUpserts
    rfl (by simp [empty, StateStore.load]) hnone htext
  refine ⟨?_, hcrashed⟩
  rw [hquiet (fun _ => rfl) .quiet]
  rfl

end Stored

end DevMgr.Daemon
