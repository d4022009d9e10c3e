import DevMgr.Core.Criticality

/-!
# The modules the kernel has loaded

The lister takes every module as the kernel names it, and a loaded module carries
`_` where the name of its file may carry `-`. The policy compares names exactly, so
the entries that are written with `-` are never met.
-/

open DevMgr.Core

namespace DevMgr.Linux
open Bytes

def dash : UInt8 := 45
def underscore : UInt8 := 95

def normalized (name : Str) : Str := name.map fun c => if c = dash then underscore else c

structure KmodModule where
  name : Str
  size : Int64
  refcnt : ℤ
  holders : List Str

def KmodModule.toLoaded (m : KmodModule) : LoadedModule where
  name := m.name
  sizeBytes := m.size.toUInt64
  refCount := m.refcnt
  holders := m.holders

def listLoadedModules (ready : Result Unit) (loaded : Option (List KmodModule)) :
    Result (List LoadedModule) :=
  match ready with
  | .error e => .error e
  | .ok () =>
    match loaded with
    | none => makeError .io (str "cannot read loaded modules")
    | some list => .ok (list.map KmodModule.toLoaded)

theorem normalized_eq_self {name : Str} (h : dash ∉ name) : normalized name = name := by
  conv_rhs => rw [← List.map_id name]
  apply List.map_congr_left
  intro c hc
  have hne : c ≠ dash := fun heq => h (heq ▸ hc)
  simp [hne]

theorem entry_normalized {entry : Str} (h : entry ∈ kEssentialModules) :
    normalized entry ∈ kEssentialModules ↔ dash ∉ entry := by
  have hentries : kEssentialModules.all
      fun e => decide (normalized e ∈ kEssentialModules ↔ dash ∉ e) := by decide
  exact of_decide_eq_true (List.all_eq_true.mp hentries entry h)

theorem security_normalized {name : Str} :
    name ∈ kSecurityModules ↔ normalized name ∈ kSecurityModules := by
  have hplain : ∀ n ∈ kSecurityModules, dash ∉ n ∧ underscore ∉ n := by decide
  by_cases hdash : dash ∈ name
  · have hunder : underscore ∈ normalized name := List.mem_map.mpr ⟨dash, hdash, by decide⟩
    exact ⟨fun h => absurd hdash (hplain _ h).1, fun h => absurd hunder (hplain _ h).2⟩
  · rw [normalized_eq_self hdash]

theorem classify_normalized_iff (name : Str) (refCount : ℤ) (holders : List Str) :
    classifyModule name refCount holders = classifyModule (normalized name) refCount holders ↔
      dash ∉ name ∨ name ∉ kEssentialModules ∧ normalized name ∉ kEssentialModules := by
  constructor
  · intro heq
    have hsame : name ∈ kEssentialModules ↔ normalized name ∈ kEssentialModules := by
      rw [← classifyModule_essential refCount holders, heq, classifyModule_essential]
    by_cases hname : name ∈ kEssentialModules
    · exact .inl ((entry_normalized hname).mp (hsame.mp hname))
    · exact .inr ⟨hname, fun h => hname (hsame.mpr h)⟩
  · rintro (hdash | ⟨hname, hnormal⟩)
    · rw [normalized_eq_self hdash]
    · exact classifyModule_congr (iff_of_false hname hnormal) security_normalized

theorem mem_listLoadedModules {ready : Result Unit} {loaded : Option (List KmodModule)}
    {modules : List LoadedModule} (h : listLoadedModules ready loaded = .ok modules)
    {m : LoadedModule} (hm : m ∈ modules) :
    ∃ list, loaded = some list ∧ ∃ k ∈ list, k.toLoaded = m := by
  unfold listLoadedModules at h
  split at h
  · simp at h
  · split at h
    · simp [makeError] at h
    · obtain rfl := Except.ok.inj h
      exact ⟨_, rfl, List.mem_map.mp hm⟩

/-- The law of the normal form holds just where no entry of the list is concerned that is written
with a `-`; and of the loaded modules that are an entry up to `-` and `_`, the policy knows those
whose entry has none. -/
theorem essential_recognised (name : Str) (refCount : ℤ) (holders : List Str) (ready : Result Unit)
    (loaded : List KmodModule) (modules : List LoadedModule) :
    (classifyModule name refCount holders = classifyModule (normalized name) refCount holders ↔
      dash ∉ name ∨ name ∉ kEssentialModules ∧ normalized name ∉ kEssentialModules) ∧
    (listLoadedModules ready (some loaded) = .ok modules →
      (∀ k ∈ loaded, normalized k.name = k.name) →
      ∀ m ∈ modules, ∀ entry, normalized m.name = normalized entry →
        (entry ∈ kEssentialModules →
          (classifyModule m.name m.refCount m.holders = .essential ↔ dash ∉ entry)) ∧
        (entry ∈ kSecurityModules →
          classifyModule m.name m.refCount m.holders = .important)) := by
  refine ⟨classify_normalized_iff name refCount holders,
    fun hlist hnames m hm entry hentry => ?_⟩
  have hname : m.name = normalized entry := by
    obtain ⟨_, hlist', k, hk, rfl⟩ := mem_listLoadedModules hlist hm
    obtain rfl := Option.some.inj hlist'
    exact (hnames k hk).symm.trans hentry
  rw [hname]
  constructor
  · intro hlisted
    rw [classifyModule_essential, entry_normalized hlisted]
  · intro hlisted
    exact classifyModule_security (security_normalized.mp hlisted)

def dmCrypt : KmodModule := ⟨str "dm_crypt", 65536, 0, []⟩

def scsiMod : KmodModule := ⟨str "scsi_mod", 294912, 0, []⟩

theorem scsiMod_recognised :
    classifyModule (str "scsi_mod") 0 [] = .essential ∧
      classifyModule (str "dm_crypt") 0 [] ≠ .essential ∧
      classifyModule (str "dm-crypt") 0 [] ≠ classifyModule (str "dm_crypt") 0 [] := by
  have hloaded : ∀ k ∈ [dmCrypt, scsiMod], normalized k.name = k.name := by decide
  obtain ⟨hnormal, hlisted⟩ :=
    essential_recognised (str "dm-crypt") 0 [] (.ok ()) [dmCrypt, scsiMod]
      [dmCrypt.toLoaded, scsiMod.toLoaded]
  refine ⟨?_, ?_, ?_⟩
  · exact ((hlisted rfl hloaded scsiMod.toLoaded (by decide) (str "scsi_mod") (by decide)).1
      (by decide)).mpr (by decide)
  · intro hessential
    exact absurd (((hlisted rfl hloaded dmCrypt.toLoaded (by decide) (str "dm-crypt") (by decide)).1
      (by decide)).mp hessential) (by decide)
  · intro hsame
    exact absurd (hnormal.mp hsame) (by decide)

theorem dmCrypt_ordinary :
    listLoadedModules (.ok ()) (some [dmCrypt]) = .ok [dmCrypt.toLoaded] ∧
    str "dm-crypt" ∈ kEssentialModules ∧ dmCrypt.toLoaded.name = normalized (str "dm-crypt") ∧
    classifyModule dmCrypt.toLoaded.name 0 [] = .ordinary ∧
    ¬ ∀ (name : Str) (refCount : ℤ) (holders : List Str),
      classifyModule name refCount holders = classifyModule (normalized name) refCount holders := by
  refine ⟨rfl, by decide, by decide, by decide, fun hall => ?_⟩
  exact absurd (hall (str "dm-crypt") 0 []) (by decide)

end DevMgr.Linux
