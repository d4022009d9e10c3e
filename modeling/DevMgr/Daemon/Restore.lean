import DevMgr.Daemon.Bench
import DevMgr.Daemon.Machine
import DevMgr.Daemon.SnapshotRuns

/-!
# What a restore leaves

A restore that ends well and reports no failed item leaves the files and the
entries of its snapshot; what converges the hardware afterwards touches nothing
of an entry but the path it was last seen at and its suspension.
-/

open DevMgr.Core

namespace DevMgr.Daemon
open Bytes Program

variable {H : Type} {J : Json.Codec} {P : Platform H} {faults : ℕ → Faults} {t : Thread}
  {s : State (Machine H)}

def Failed (item : RestoreItemOutcome) : Prop := item.status = str "failed"

def NoneFailed (items : List RestoreItemOutcome) : Prop := ∀ item ∈ items, ¬ Failed item

theorem noneFailed_append {items items' : List RestoreItemOutcome} :
    NoneFailed (items ++ items') ↔ NoneFailed items ∧ NoneFailed items' := by
  simp [NoneFailed, or_imp, forall_and]

theorem owned_ne_tmp {name other : Str} (h : isDevmgrOwned name = true) :
    name ≠ tmpName other := by
  rintro rfl
  simp only [isDevmgrOwned, decide_eq_true_eq] at h
  obtain ⟨p, hp⟩ := h.2
  have hlast := congrArg List.getLast? hp
  rw [tmpName, getLast?_append_literal p (c := 102) (by decide),
    getLast?_append_literal other (c := 112) (by decide)] at hlast
  exact absurd hlast (by decide)

theorem atomicWriteFile_ok {e : Env} {fault : Option WriteFault} {d d' : Directory}
    {name content : Str} (h : atomicWriteFile e fault d name content = (.ok (), d')) :
    d' = renamed d name content := by
  rcases atomicWriteFile_cases (e := e) fault d name content with
    ⟨_, r, hr, _⟩ | ⟨_, error, d'', herror, _⟩
  · exact (Prod.mk.inj (h.symm.trans hr)).2
  · exact absurd (Prod.mk.inj (h.symm.trans herror)).1 (by simp)

theorem removeModprobe_getElem? {w : Machine H} {name other : Str}
    (h : (Machine.removeModprobe faults w name).1 = none) :
    (Machine.removeModprobe faults w name).2.modprobeDir[other]? =
      if other = name then none else w.modprobeDir[other]? := by
  unfold Machine.removeModprobe at h ⊢
  cases hfault : (faults w.calls).modprobeRemove with
  | some message =>
    rw [hfault] at h
    exact absurd h (by simp)
  | none =>
    by_cases hother : other = name
    · simp [hother]
    · simp [Std.ExtTreeMap.getElem?_erase, hother, Ne.symm hother]

theorem writeModprobe_getElem? {w : Machine H} {name other content : Str}
    (h : (Machine.writeModprobe faults w name content).1 = .ok ()) (htmp : other ≠ tmpName name) :
    (Machine.writeModprobe faults w name content).2.modprobeDir[other]? =
      if other = name then some content else w.modprobeDir[other]? := by
  have hdir : (Machine.writeModprobe faults w name content).2.modprobeDir =
      renamed w.modprobeDir name content := atomicWriteFile_ok (Prod.ext h rfl)
  rw [hdir]
  by_cases hother : other = name
  · rw [if_pos hother, hother, renamed_self]
  · rw [if_neg hother, renamed_other hother htmp]

theorem leaves_removeModprobeFiles {target : SnapshotPayload} (files : List (Str × Str)) :
    Leaves (Machine.respond J P faults t) (removeModprobeFiles target files) s
      fun items s' => NoneFailed items → ∀ name, s'.world.modprobeDir[name]? =
        if name ∈ files.map Prod.fst ∧ name ∉ target.modprobeFiles then none
        else s.world.modprobeDir[name]? := by
  induction files generalizing s with
  | nil => exact leaves_pure.mpr fun _ name => by simp
  | cons file files ih =>
    obtain ⟨first, content⟩ := file
    rw [removeModprobeFiles, collect]
    by_cases hkeep : first ∈ target.modprobeFiles
    · simp only [if_pos hkeep]
      refine leaves_bind.mpr (leaves_pure.mpr (leaves_bind.mpr (ih.mono fun items s' hitems => ?_)))
      refine leaves_pure.mpr fun hnone name => ?_
      rw [hitems hnone]
      refine if_congr (and_congr_left fun hname => ?_) rfl rfl
      have hne : name ≠ first := fun heq => hname (heq ▸ hkeep)
      simp [hne]
    · simp only [if_neg hkeep]
      refine leaves_bind.mpr (leaves_bind.mpr (leaves_call.mpr (leaves_pure.mpr (leaves_bind.mpr
        (ih.mono fun items s' hitems => leaves_pure.mpr fun hnone name => ?_)))))
      rw [noneFailed_append] at hnone
      have hremoved : (Machine.removeModprobe faults s.world first).1 = none := by
        have hitem := hnone.1 _ (List.mem_singleton_self _)
        by_contra hsome
        exact hitem (if_pos (Option.isSome_iff_ne_none.mpr hsome))
      have hdir :
          (Machine.respond J P faults t (.removeModprobe first) s).2.world.modprobeDir[name]? =
          if name = first then none else s.world.modprobeDir[name]? :=
        removeModprobe_getElem? hremoved
      rw [hitems hnone.2, hdir]
      by_cases hname : name = first
      · simp [hname, hkeep]
      · rw [if_neg hname, List.map_cons]
        exact if_congr (and_congr_left fun _ => by rw [List.mem_cons, or_iff_right hname]) rfl rfl

theorem leaves_writeModprobeFiles {pre : SnapshotPayload} {files : List (Str × Str)}
    (hnodup : (files.map Prod.fst).Nodup) :
    Leaves (Machine.respond J P faults t) (writeModprobeFiles pre files) s
      fun items s' => NoneFailed items → ∀ name, isDevmgrOwned name = true →
        (name ∉ files.map Prod.fst →
          s'.world.modprobeDir[name]? = s.world.modprobeDir[name]?) ∧
        ∀ content, (name, content) ∈ files →
          pre.modprobeFiles[name]? = s.world.modprobeDir[name]? →
          s'.world.modprobeDir[name]? = some content := by
  induction files generalizing s with
  | nil => exact leaves_pure.mpr fun _ name _ => by simp
  | cons file files ih =>
    obtain ⟨first, text⟩ := file
    rw [List.map_cons, List.nodup_cons] at hnodup
    rw [writeModprobeFiles, collect]
    by_cases hsame : pre.modprobeFiles[first]? = some text
    · simp only [if_pos hsame]
      refine leaves_bind.mpr (leaves_pure.mpr (leaves_bind.mpr
        ((ih hnodup.2).mono fun items s' hitems => leaves_pure.mpr fun hnone name howned => ?_)))
      obtain ⟨hother, hwritten⟩ := hitems hnone name howned
      refine ⟨fun hname => hother fun h => hname (List.mem_cons_of_mem _ h), ?_⟩
      intro content hmem hpre
      rcases List.mem_cons.mp hmem with heq | hmem
      · obtain ⟨rfl, rfl⟩ := Prod.mk.inj heq
        rw [hother hnodup.1, ← hpre, hsame]
      · exact hwritten content hmem hpre
    · simp only [if_neg hsame]
      refine leaves_bind.mpr (leaves_bind.mpr (leaves_call.mpr (leaves_pure.mpr (leaves_bind.mpr
        ((ih hnodup.2).mono fun items s' hitems => leaves_pure.mpr fun hnone name howned => ?_)))))
      rw [noneFailed_append] at hnone
      have hok : (Machine.writeModprobe faults s.world first text).1 = .ok () := by
        have hitem := hnone.1 _ (List.mem_singleton_self _)
        cases hwrite : (Machine.respond J P faults t (.writeModprobe first text) s).1 with
        | ok u => exact hwrite
        | error error =>
          rw [hwrite] at hitem
          exact absurd rfl hitem
      have hdir :
          (Machine.respond J P faults t (.writeModprobe first text) s).2.world.modprobeDir[name]? =
          if name = first then some text else s.world.modprobeDir[name]? :=
        writeModprobe_getElem? hok (owned_ne_tmp howned)
      obtain ⟨hother, hwritten⟩ := hitems hnone.2 name howned
      rw [hdir] at hother hwritten
      refine ⟨fun hname => ?_, fun content hmem hpre => ?_⟩
      · rw [List.map_cons, List.mem_cons, not_or] at hname
        rw [hother hname.2, if_neg hname.1]
      · by_cases hname : name = first
        · subst hname
          have heq : content = text := by
            rcases List.mem_cons.mp hmem with heq | hmem
            · exact (Prod.mk.inj heq).2
            · exact absurd (List.mem_map_of_mem hmem) hnodup.1
          rw [hother hnodup.1, if_pos rfl, heq]
        · rw [if_neg hname] at hwritten
          refine hwritten content ?_ hpre
          exact (List.mem_cons.mp hmem).resolve_left fun heq => hname (Prod.mk.inj heq).1

theorem leaves_writeBackModprobe {pre target : SnapshotPayload}
    (hfiles : pre.modprobeFiles = ownedFiles s.world.modprobeDir) :
    Leaves (Machine.respond J P faults t) (writeBackModprobe pre target) s
      fun items s' => NoneFailed items →
        (∀ name ∈ target.modprobeFiles, isDevmgrOwned name = true) →
          ownedFiles s'.world.modprobeDir = target.modprobeFiles := by
  have hnodup : (target.modprobeFiles.toList.map Prod.fst).Nodup := by
    rw [Std.ExtTreeMap.map_fst_toList_eq_keys]
    exact Std.ExtTreeMap.nodup_keys
  refine leaves_bind.mpr ((leaves_removeModprobeFiles _).mono fun removed s₁ hremoved => ?_)
  refine leaves_bind.mpr ((leaves_writeModprobeFiles hnodup).mono fun written s₂ hwritten => ?_)
  refine leaves_pure.mpr fun hnone howned => Std.ExtTreeMap.ext_getElem? fun name => ?_
  rw [noneFailed_append] at hnone
  rw [ownedFiles_getElem?]
  split_ifs with hname
  · obtain ⟨hother, hcontent⟩ := hwritten hnone.2 name hname
    have hkeys : ∀ m : StringMap Str, name ∈ m.toList.map Prod.fst ↔ name ∈ m := fun m => by
      rw [Std.ExtTreeMap.map_fst_toList_eq_keys, Std.ExtTreeMap.mem_keys]
    have hpre : pre.modprobeFiles[name]? = s.world.modprobeDir[name]? := by
      rw [hfiles, ownedFiles_getElem?, if_pos hname]
    have hbefore := hremoved hnone.1 name
    by_cases htarget : name ∈ target.modprobeFiles
    · rw [if_neg fun h => h.2 htarget] at hbefore
      obtain ⟨content, hfile⟩ := Option.isSome_iff_exists.mp
        (Std.ExtTreeMap.mem_iff_isSome_getElem?.mp htarget)
      rw [hfile]
      exact hcontent content (Std.ExtTreeMap.mem_toList_iff_getElem?_eq_some.mpr hfile)
        (hpre.trans hbefore.symm)
    · rw [hother ((hkeys _).not.mpr htarget), hbefore, Std.ExtTreeMap.getElem?_eq_none htarget]
      by_cases hmem : name ∈ pre.modprobeFiles
      · exact if_pos ⟨(hkeys _).mpr hmem, htarget⟩
      · rw [if_neg fun h => hmem ((hkeys _).mp h.1), ← hpre,
          Std.ExtTreeMap.getElem?_eq_none hmem]
  · refine (Std.ExtTreeMap.getElem?_eq_none fun hmem => hname (howned name hmem)).symm

theorem leaves_writeBackModprobe_kept (pre target : SnapshotPayload) :
    Leaves (Machine.respond J P faults t) (writeBackModprobe pre target) s
      fun _ s' => s'.entries = s.entries ∧ s'.world.snapshots = s.world.snapshots := by
  have honly : Only (fun o : Op => (∃ name, o = .removeModprobe name) ∨
      ∃ name content, o = .writeModprobe name content) (writeBackModprobe pre target) := by
    exact only_writeBackModprobe (fun name => .inl ⟨name, rfl⟩) fun name content =>
      .inr ⟨name, content, rfl⟩
  refine leaves_only honly ?_ ⟨rfl, rfl⟩
  rintro _ s' (⟨name, rfl⟩ | ⟨name, content, rfl⟩) hs'
  · refine ⟨hs'.1, Eq.trans ?_ hs'.2⟩
    change (Machine.removeModprobe faults s'.world name).2.snapshots = _
    unfold Machine.removeModprobe
    split <;> rfl
  · exact hs'

def settled (entry : DisabledDeviceEntry) : DisabledDeviceEntry :=
  { entry with lastSysfsPath := [], guardSuspended := false }

structure SamePayload (p q : SnapshotPayload) : Prop where
  entries : p.entries.map settled = q.entries.map settled
  files : p.modprobeFiles = q.modprobeFiles

def Op.Converges (o : Op) : Prop :=
  o.Sees ∨ match o with
    | .probe | .setEnabled .. | .setLastSysfsPath .. | .setGuardSuspended .. => True
    | _ => False

structure Settles (s s' : State (Machine H)) : Prop where
  snapshots : s'.world.snapshots = s.world.snapshots
  files : s'.world.modprobeDir = s.world.modprobeDir
  entries : s'.entries.map settled = s.entries.map settled

theorem Settles.refl (s : State (Machine H)) : Settles s s := ⟨rfl, rfl, rfl⟩

theorem Settles.trans {s s' s'' : State (Machine H)} (h : Settles s s') (h' : Settles s' s'') :
    Settles s s'' :=
  ⟨h'.snapshots.trans h.snapshots, h'.files.trans h.files, h'.entries.trans h.entries⟩

theorem save_world (entries : List DisabledDeviceEntry) :
    let w := (s.save J (Machine.platform J P faults) entries).2.world
    w.hardware = s.world.hardware ∧ w.snapshots = s.world.snapshots ∧
      w.modprobeDir = s.world.modprobeDir := by
  unfold State.save
  dsimp only
  split_ifs <;> exact ⟨rfl, rfl, rfl⟩

theorem settles_updateEntry {key : DeviceKey} {f : DisabledDeviceEntry → DisabledDeviceEntry}
    (hf : ∀ e, settled (f e) = settled e) :
    Settles s (s.updateEntry J (Machine.platform J P faults) key f).2 := by
  have hentries : (s.updateEntry J (Machine.platform J P faults) key f).2.entries.map settled =
      s.entries.map settled := updateEntry_map J _ hf
  refine ⟨?_, ?_, hentries⟩
  all_goals
    unfold State.updateEntry
    split
    · first | exact (save_world _).2.1 | exact (save_world _).2.2
    · rfl

theorem settles_respond {o : Op} (h : o.Converges) :
    Settles s (Machine.respond J P faults t o s).2 := by
  rcases h with h | h
  · rw [respond_reads J _ o s (.inl h)]
    exact .refl s
  · cases o <;> first | exact h.elim | skip
    · exact .refl s
    · exact ⟨rfl, rfl, rfl⟩
    · exact settles_updateEntry fun _ => rfl
    · exact settles_updateEntry fun _ => rfl

theorem leaves_settles {α : Type} {p : Prog daemon α} (h : Only Op.Converges p) :
    Leaves (Machine.respond J P faults t) p s fun _ s' => Settles s s' :=
  leaves_only h (fun _ _ ho hs => hs.trans (settles_respond ho)) (.refl s)

theorem converges_reEnableRemoved (pre target : SnapshotPayload) :
    Only Op.Converges (reEnableRemoved pre target) :=
  only_reEnableRemoved (fun _ => .inl) fun _ _ => .inr trivial

theorem converges_reApplyRestored : Only Op.Converges reApplyRestored :=
  only_reApplyRestored (fun _ => .inl) (.inr trivial) (fun _ _ => .inr trivial)
    (fun _ _ => .inr trivial) fun _ _ => .inr trivial

def writeBack (id safety : Str) (pre target : SnapshotPayload) : Verb RestoreOutcome := do
  ExceptT.mk (call (S := daemon) (.replaceAll target.entries) >>= orRaise)
  let files ← writeBackModprobe pre target
  let enabled ← reEnableRemoved pre target
  let applied ← reApplyRestored
  return { snapshotId := id, safetySnapshotId := safety, items := files ++ enabled ++ applied }

theorem restore_eq (id : Str) : restore id = (do
    let snap ← ExceptT.mk (call (S := daemon) (.readSnapshot id))
    let pre ← capturePayload
    let safety ← storePut pre .auto { verb := str "SnapshotRestore", subject := id }
    writeBack id safety pre snap.payload) := rfl

def withSafety (s : State (Machine H)) (snapshots : Directory) : State (Machine H) :=
  { s with world := { s.world with snapshots, calls := s.world.calls + 2 } }

def TakesSafety (J : Json.Codec) (P : Platform H) (faults : ℕ → Faults) (s : State (Machine H))
    (id safety : Str) (d : Directory) : Prop :=
  put J (faults (s.world.calls + 1)).snapshots s.world.snapshots (captured s) .auto
    ⟨str "SnapshotRestore", id⟩ (P.nowUtc s.world.hardware) = .ok (.ok safety, d)

structure Untouched (s s' : State (Machine H)) : Prop where
  entries : s'.entries = s.entries
  stateFile : s'.world.stateDir[str "state.json"]? = s.world.stateDir[str "state.json"]?
  files : s'.world.modprobeDir = s.world.modprobeDir
  hardware : s'.world.hardware = s.world.hardware

theorem leaves_readSnapshot (id : Str) :
    Leaves (Machine.respond J P faults t) (call (S := daemon) (.readSnapshot id)) s
      fun result s' => match result with
        | .error _ => Untouched s s'
        | .ok snap => stored J s.world.snapshots id = some snap ∧
            s' = { s with world := { s.world with calls := s.world.calls + 1 } } := by
  refine leaves_call.mpr ?_
  cases hread : (Machine.respond J P faults t (.readSnapshot id) s).1 with
  | error error => exact ⟨rfl, rfl, rfl, rfl⟩
  | ok snap =>
    obtain ⟨hstored, hdir⟩ := readLocked_ok (Prod.ext hread rfl)
    exact ⟨hstored, congrArg (fun d => ({ s with world := { s.world with
      snapshots := d
      calls := s.world.calls + 1 } } : State (Machine H))) hdir⟩

theorem leaves_storePut {payload : SnapshotPayload} {trigger : SnapshotTrigger}
    {reason : SnapshotReason} :
    Leaves (Machine.respond J P faults t) (storePut payload trigger reason).run s fun result s' =>
      ∃ d, put J (faults s.world.calls).snapshots s.world.snapshots payload trigger reason
        (P.nowUtc s.world.hardware) = .ok (result, d) ∧
          s' = { s with world := { s.world with snapshots := d, calls := s.world.calls + 1 } } := by
  refine leaves_bind.mpr
    (leaves_call.mpr (leaves_bind.mpr (leaves_call.mpr (leaves_orRaise.mpr ?_))))
  intro result hresult
  change (Machine.putSnapshot J faults s.world payload trigger reason
    (P.nowUtc s.world.hardware)).1 = some result at hresult
  change ∃ d, _ ∧
    ({ s with world := (Machine.putSnapshot J faults s.world payload trigger reason
    (P.nowUtc s.world.hardware)).2 } : State (Machine H)) = _
  unfold Machine.putSnapshot at hresult ⊢
  cases hput : put J (faults s.world.calls).snapshots s.world.snapshots payload trigger reason
    (P.nowUtc s.world.hardware) with
  | error exception =>
    rw [hput] at hresult
    exact absurd hresult (by simp)
  | ok stored =>
    rw [hput] at hresult
    exact ⟨stored.2, by rw [← Option.some.inj hresult], rfl⟩

theorem leaves_restore_steps {id : Str} {Q : Result RestoreOutcome → State (Machine H) → Prop}
    (hfails : ∀ error s', Untouched s s' → Q (.error error) s')
    (hwrites : ∀ snap safety d, stored J s.world.snapshots id = some snap →
      TakesSafety J P faults s id safety d →
      Leaves (Machine.respond J P faults t) (writeBack id safety (captured s) snap.payload).run
        (withSafety s d) Q) :
    Leaves (Machine.respond J P faults t) (restore id).run s Q := by
  rw [restore_eq]
  refine leaves_step.mpr ((leaves_readSnapshot id).mono fun result s₁ hread => ?_)
  cases result with
  | error error => exact hfails error s₁ hread
  | ok snap =>
    obtain ⟨hstored, rfl⟩ := hread
    refine leaves_step.mpr (leaves_lift.mpr (leaves_capturePayload.mono ?_))
    rintro pre _ ⟨rfl, rfl⟩
    refine leaves_step.mpr (leaves_storePut.mono ?_)
    rintro safety _ ⟨d, hput, rfl⟩
    cases safety with
    | error error => exact hfails error _ ⟨rfl, rfl, rfl, rfl⟩
    | ok safety => exact hwrites snap safety d hstored hput

/-- What a restore that ends well leaves. -/
structure Restored (J : Json.Codec) (s : State (Machine H)) (id : Str) (outcome : RestoreOutcome)
    (s' : State (Machine H)) : Prop where
  reached : ∃ snap, stored J s.world.snapshots id = some snap ∧
    ((∀ name ∈ snap.payload.modprobeFiles, isDevmgrOwned name = true) →
      NoneFailed outcome.items → SamePayload (captured s') snap.payload)
  safety : ∃ e now, put J e s.world.snapshots (captured s) .auto
      ⟨str "SnapshotRestore", id⟩ now =
    .ok (.ok outcome.safetySnapshotId, s'.world.snapshots)

theorem leaves_writeBack {id safety : Str} {pre target : SnapshotPayload}
    (hpre : pre.modprobeFiles = ownedFiles s.world.modprobeDir) :
    Leaves (Machine.respond J P faults t) (writeBack id safety pre target).run s fun result s' =>
      ∀ outcome, result = .ok outcome → outcome.safetySnapshotId = safety ∧
        s'.world.snapshots = s.world.snapshots ∧
        ((∀ name ∈ target.modprobeFiles, isDevmgrOwned name = true) →
          NoneFailed outcome.items → SamePayload (captured s') target) := by
  refine leaves_step.mpr (leaves_bind.mpr (leaves_call.mpr (leaves_orRaise.mpr ?_)))
  intro replaced _
  cases replaced with
  | error error => exact nofun
  | ok u =>
    obtain ⟨_, hsnapshots, hsaved⟩ := save_world (J := J) (P := P) (s := s)
      target.entries
    refine leaves_step.mpr (leaves_lift.mpr ((leaves_writeBackModprobe ?_).and
      (leaves_writeBackModprobe_kept _ _) |>.mono ?_))
    · exact hpre.trans (congrArg ownedFiles hsaved.symm)
    rintro files s₂ ⟨hback, hentries₂, hsnapshots₂⟩
    refine leaves_step.mpr (leaves_lift.mpr
      ((leaves_settles (converges_reEnableRemoved _ _)).mono fun enabled s₃ henabled => ?_))
    refine leaves_step.mpr (leaves_lift.mpr
      ((leaves_settles converges_reApplyRestored).mono fun applied s₄ happlied => ?_))
    refine leaves_pure.mpr ?_
    rintro outcome ⟨⟩
    have hsettles := henabled.trans happlied
    refine ⟨rfl, hsettles.snapshots.trans (hsnapshots₂.trans hsnapshots),
      fun howned hnone => ⟨?_, ?_⟩⟩
    · have hnow := hentries₂.trans (save_entries J _ target.entries)
      exact hsettles.entries.trans (congrArg _ hnow)
    · have hwritten := hback (noneFailed_append.mp (noneFailed_append.mp hnone).1).1 howned
      exact (congrArg ownedFiles hsettles.files).trans hwritten

theorem leaves_restore (id : Str) : Leaves (Machine.respond J P faults t) (restore id).run s
    fun result s' => ∀ outcome, result = .ok outcome → Restored J s id outcome s' := by
  refine leaves_restore_steps (fun _ _ _ => nofun) fun snap safety d hstored hput => ?_
  refine (leaves_writeBack rfl).mono fun result s' hresult outcome houtcome => ?_
  obtain ⟨rfl, hdir, hreached⟩ := hresult outcome houtcome
  exact ⟨⟨snap, hstored, hreached⟩, _, _, hput.trans (by rw [hdir]; rfl)⟩

/-- The write of the state file failing, the entries of the snapshot are those in memory, and what
lands nevertheless is what the file says. -/
def RestoreKeeps (J : Json.Codec) (P : Platform H) (faults : ℕ → Faults) (s : State (Machine H))
    (id : Str) : Prop :=
  ∀ snap safety d fault, stored J s.world.snapshots id = some snap →
    TakesSafety J P faults s id safety d →
    (StateStore.document snap.payload.entries).isText = true →
    (faults (s.world.calls + 2)).stateWrite = some fault →
    snap.payload.entries = s.entries ∧ (lands (some fault) = true →
      s.world.stateDir[str "state.json"]? =
        some (J.dumpIndented (StateStore.document s.entries)))

theorem save_error {entries : List DisabledDeviceEntry} {error : Error}
    (h : (s.save J (Machine.platform J P faults) entries).1 = some (.error error)) :
    (StateStore.document entries).isText = true ∧
      ∃ fault, (faults s.world.calls).stateWrite = some fault := by
  unfold State.save at h
  dsimp only at h
  split_ifs at h with htext
  refine ⟨htext, Option.ne_none_iff_exists'.mp fun hnone => ?_⟩
  have hwrite : (Machine.writeState faults s.world
      (J.dumpIndented (StateStore.document entries))).1 = .error error := Option.some.inj h
  unfold Machine.writeState at hwrite
  rw [hnone] at hwrite
  exact absurd hwrite (by simp [atomicWriteFile])

theorem writeState_fault {w : Machine H} {fault : WriteFault} (content : Str)
    (hfault : (faults w.calls).stateWrite = some fault) :
    (∃ error, (Machine.writeState faults w content).1 = .error error) ∧
      (Machine.writeState faults w content).2.stateDir[str "state.json"]? =
        if lands (some fault) then some content else w.stateDir[str "state.json"]? := by
  have hne : str "state.json" ≠ tmpName (str "state.json") := by decide
  simp only [Machine.writeState, hfault]
  cases fault with
  | «open» => exact ⟨⟨_, rfl⟩, rfl⟩
  | write left => exact ⟨⟨_, rfl⟩, dropTmp_other hne left⟩
  | sync fault left => exact ⟨⟨_, rfl⟩, dropTmp_other hne left⟩
  | rename message left => exact ⟨⟨_, rfl⟩, dropTmp_other hne left⟩
  | syncDir fault => exact ⟨⟨_, rfl⟩, renamed_self _ _⟩

theorem save_text {entries : List DisabledDeviceEntry}
    (htext : (StateStore.document entries).isText = true) :
    let written := Machine.writeState faults s.world (J.dumpIndented (StateStore.document entries))
    s.save J (Machine.platform J P faults) entries =
      (some written.1, { s with world := written.2, entries }) := by
  unfold State.save
  rw [if_neg (not_not.mpr htext)]
  rfl

theorem leaves_writeBack_error {id safety : Str} {pre target : SnapshotPayload} :
    Leaves (Machine.respond J P faults t) (writeBack id safety pre target).run s fun result s' =>
      ∀ error, result = .error error →
        (s.save J (Machine.platform J P faults) target.entries).1 = some (.error error) ∧
          s' = (s.save J (Machine.platform J P faults) target.entries).2 := by
  refine leaves_step.mpr (leaves_bind.mpr (leaves_call.mpr (leaves_orRaise.mpr ?_)))
  intro replaced hreplaced
  cases replaced with
  | error error =>
    rintro _ ⟨⟩
    exact ⟨hreplaced, rfl⟩
  | ok u =>
    refine leaves_step.mpr (leaves_lift.mpr fun _ _ => leaves_step.mpr (leaves_lift.mpr ?_))
    exact fun _ _ => leaves_step.mpr (leaves_lift.mpr fun _ _ => leaves_pure.mpr nofun)

theorem run_storePut {payload : SnapshotPayload} {trigger : SnapshotTrigger}
    {reason : SnapshotReason} {result : Result Str} {d : Directory}
    (hput : put J (faults s.world.calls).snapshots s.world.snapshots payload trigger reason
      (P.nowUtc s.world.hardware) = .ok (result, d)) :
    (run (Machine.respond J P faults t) (storePut payload trigger reason).run s).value =
        some result ∧
      (run (Machine.respond J P faults t) (storePut payload trigger reason).run s).state =
        { s with world := { s.world with snapshots := d, calls := s.world.calls + 1 } } := by
  have hrun : run (Machine.respond J P faults t) (storePut payload trigger reason).run s =
      let called := Machine.putSnapshot J faults s.world payload trigger reason
        (P.nowUtc s.world.hardware)
      let ran := run (Machine.respond J P faults t) (orRaise called.1) { s with world := called.2 }
      ⟨.nowUtc :: .putSnapshot payload trigger reason (P.nowUtc s.world.hardware) :: ran.issued,
        ran.value, ran.state⟩ := rfl
  rw [hrun, putSnapshot_ok hput]
  exact ⟨rfl, rfl⟩

theorem run_restore {id safety : Str} {snap : Snapshot} {d : Directory}
    (hstored : stored J s.world.snapshots id = some snap)
    (hput : TakesSafety J P faults s id safety d) :
    (run (Machine.respond J P faults t) (restore id).run s).SameEnd
      (run (Machine.respond J P faults t)
        (writeBack id safety (captured s) snap.payload).run (withSafety s d)) := by
  have hread : run (Machine.respond J P faults t)
      (ExceptT.mk (call (S := daemon) (.readSnapshot id))).run s =
        let called := readLocked J (faults s.world.calls).snapshots s.world.snapshots id
        ⟨[.readSnapshot id], some called.1, { s with world := { s.world with
          snapshots := called.2
          calls := s.world.calls + 1 } }⟩ := rfl
  rw [readLocked_stored hstored] at hread
  rw [restore_eq]
  refine (run_step _ (by rw [hread]) (by rw [hread])).trans ?_
  obtain ⟨hcaptured, hstate⟩ := run_capturePayload (J := J) (P := P) (t := t)
    (s := { s with world := { s.world with calls := s.world.calls + 1 } })
  refine (run_step _ (run_lift _ hcaptured).1 ((run_lift _ hcaptured).2.trans hstate)).trans ?_
  unfold TakesSafety at hput
  obtain ⟨hvalue, hstate⟩ := run_storePut (P := P) (t := t)
    (s := { s with world := { s.world with calls := s.world.calls + 1 } }) hput
  exact run_step _ hvalue hstate

theorem run_writeBack_fault (id safety : Str) (pre : SnapshotPayload) {target : SnapshotPayload}
    {fault : WriteFault} (htext : (StateStore.document target.entries).isText = true)
    (hfault : (faults s.world.calls).stateWrite = some fault) :
    ∃ error, (run (Machine.respond J P faults t) (writeBack id safety pre target).run s).SameEnd
      ⟨[], some (.error error), (s.save J (Machine.platform J P faults) target.entries).2⟩ := by
  obtain ⟨⟨error, herror⟩, _⟩ := writeState_fault (w := s.world)
    (J.dumpIndented (StateStore.document target.entries)) hfault
  have hrun : run (Machine.respond J P faults t)
      (ExceptT.mk (call (S := daemon) (.replaceAll target.entries) >>= orRaise)).run s =
        let called := s.save J (Machine.platform J P faults) target.entries
        let ran := run (Machine.respond J P faults t) (orRaise called.1) called.2
        ⟨.replaceAll target.entries :: ran.issued, ran.value, ran.state⟩ := rfl
  rw [save_text htext, herror] at hrun
  rw [save_text htext]
  refine ⟨error, ?_⟩
  refine (run_step_error _ (by rw [hrun]; rfl)).trans ⟨rfl, ?_⟩
  rw [hrun]
  rfl

theorem restore_keeps_iff (id : Str) :
    (∀ error, (run (Machine.respond J P faults t) (restore id).run s).value =
      some (.error error) →
      Untouched s (run (Machine.respond J P faults t) (restore id).run s).state) ↔
      RestoreKeeps J P faults s id := by
  constructor
  · intro h snap safety d fault hstored hput htext hfault
    obtain ⟨error, hend⟩ := run_writeBack_fault (J := J) (P := P) (t := t) (s := withSafety s d)
      id safety (captured s) htext hfault
    have hrun := (run_restore (t := t) hstored hput).trans hend
    have huntouched := h error hrun.value
    rw [hrun.state, save_text htext] at huntouched
    refine ⟨huntouched.entries, fun hlands => ?_⟩
    have hfile := (writeState_fault (w := (withSafety s d).world)
      (J.dumpIndented (StateStore.document snap.payload.entries)) hfault).2
    rw [if_pos hlands] at hfile
    rw [← huntouched.stateFile, ← huntouched.entries]
    exact hfile
  · intro h error hvalue
    refine leaves_restore_steps (Q := fun result s' => ∀ error, result = .error error →
      Untouched s s') (fun _ _ huntouched _ _ => huntouched) ?_ _ hvalue error rfl
    intro snap safety d hstored hput
    refine leaves_writeBack_error.mono fun result s' hresult error herror => ?_
    obtain ⟨hsave, rfl⟩ := hresult error herror
    obtain ⟨htext, fault, hfault⟩ := save_error hsave
    obtain ⟨hentries, hfile⟩ := h snap safety d fault hstored hput htext hfault
    obtain ⟨hhardware, _, hfiles⟩ := save_world (J := J) (P := P)
      (s := withSafety s d) snap.payload.entries
    refine ⟨(save_entries J _ _).trans hentries, ?_, hfiles, hhardware⟩
    rw [save_text htext]
    refine (writeState_fault _ hfault).2.trans ?_
    split_ifs with hlands
    · rw [hfile hlands, hentries]
    · rfl

def stateDiskFull : ℕ → Faults := fun _ => { Faults.none with stateWrite := some .open }

def keyboardDisabled (snapshots : Directory) : State (Machine Bench) where
  world := ⟨⟨[], [], []⟩, ∅, snapshots, ∅, [], 0⟩
  entries := [Bench.keyboardEntry "1-3"]
  holder := none

theorem keyboardDisabled_text (d : Directory) :
    (payloadToJson (captured (keyboardDisabled d))).isText = true := by
  have hcaptured : captured (keyboardDisabled d) = ⟨[Bench.keyboardEntry "1-3"],
      ownedFiles ∅⟩ := rfl
  rw [hcaptured]
  decide

theorem run_stateDiskFull {d : Directory} {id : Str} {snap : Snapshot}
    (hstored : stored Json.reference d id = some snap) (hentries : snap.payload.entries = [])
    (hhead : ∀ id, headLocked d = some id → validUtf8 id = true) (hid : validUtf8 id = true) :
    ∃ error, (run (Machine.respond Json.reference Bench.platform stateDiskFull .bus)
        (restore id).run (keyboardDisabled d)).value = some (.error error) ∧
      (run (Machine.respond Json.reference Bench.platform stateDiskFull .bus)
        (restore id).run (keyboardDisabled d)).state.entries = [] := by
  have hverb : validUtf8 (str "SnapshotRestore") = true := by decide
  obtain ⟨d', hput⟩ : ∃ d', TakesSafety Json.reference Bench.platform stateDiskFull
      (keyboardDisabled d) id (payloadId Json.reference (captured (keyboardDisabled d))) d' :=
    put_succeeds ⟨rfl, rfl⟩ (keyboardDisabled_text d) hhead ⟨hverb, hid⟩
  have htext : (StateStore.document snap.payload.entries).isText = true := by
    rw [hentries]
    decide
  have hfault : (stateDiskFull (withSafety (keyboardDisabled d) d').world.calls).stateWrite =
      some .open := rfl
  obtain ⟨error, hend⟩ :=
    run_writeBack_fault (J := Json.reference) (P := Bench.platform) (t := .bus)
      id (payloadId Json.reference (captured (keyboardDisabled d))) (captured (keyboardDisabled d))
      htext hfault
  have hrun := (run_restore (t := .bus) hstored hput).trans hend
  exact ⟨error, hrun.value, by rw [hrun.state, save_entries]; exact hentries⟩

theorem restore_fails_half_done :
    ∃ error, (run (Machine.respond Json.reference Bench.platform stateDiskFull .bus)
        (restore (payloadId Json.reference emptyPayload)).run (keyboardDisabled firstStore)).value =
          some (.error error) ∧
      (run (Machine.respond Json.reference Bench.platform stateDiskFull .bus)
        (restore (payloadId Json.reference emptyPayload)).run
          (keyboardDisabled firstStore)).state.entries ≠
        (keyboardDisabled firstStore).entries := by
  obtain ⟨hhead, hsnap, _⟩ := firstStore_history
  obtain ⟨error, hvalue, hentries⟩ :=
    run_stateDiskFull hsnap rfl (parent_text hhead) (digest_text _)
  refine ⟨error, hvalue, ?_⟩
  rw [hentries]
  exact nofun

end DevMgr.Daemon
