import DriveAccess.Proofs.Resolution.Ancestors
import DriveAccess.Proofs.Runs.Coherence
/-!
Parent chains in all tables that commands leave: the closure table tells of the same chains, and
none is too long for the resolver.
-/
namespace DriveAccess

namespace Tables

/-- A program succeeds with one value in all sessions on the tables. -/
def Finds {α : Type} (t : Tables) (p : Program α) (a : α) : Prop :=
  ∀ stamp (s : TenantSession) stores, s.session.tables = t →
    (Backend.memory.runIn stamp p s stores).1 = .ok a

/-- What is required of the closure table and of the parent tuples: both describe one tree. -/
structure OneTree (t : Tables) : Prop where
  rows : ∀ f ∈ t.folders, ∀ x n, ⟨f.id, x, n⟩ ∈ t.paths ↔
    t.Finds (Program.resolve (Resolver.ancestor n (.folder x))) (some (.folder f.id))
  inside : ∀ f ∈ t.folders, ∀ r, ∃ inside, t.Finds (Program.isInSubtree f.id r) inside ∧
    (inside = true ↔
      ∃ n, t.Finds (Program.resolve (Resolver.ancestor n r)) (some (.folder f.id)))
  passes_down : ∀ f ∈ t.folders, ∀ r, t.Finds (Program.isInSubtree f.id r) true →
    ∀ (c : Context) user, 21 ≤ c.maxDepth →
      (∃ low high, t.Finds (Program.effectiveRole c user (.folder f.id)) low ∧
        t.Finds (Program.effectiveRole c user r) high ∧ Role.height low ≤ Role.height high) ∧
      ∃ few many, t.Finds (Program.collectPermissions c user (.folder f.id)) few ∧
        t.Finds (Program.collectPermissions c user r) many ∧ ∀ p ∈ few, p ∈ many

/-- What is required of parent chains: they are not too long for resolvers that follow as many hops
as is the default, or more. -/
structure WithinReach (t : Tables) : Prop where
  answers : ∀ limit, Resolver.defaultMaxDepth ≤ limit → ∀ user r,
    (∀ p, ∃ allowed, t.Finds (Program.resolve (Resolver.hasPermission limit user r p)) allowed) ∧
    (∃ held, t.Finds (Program.resolve (Resolver.collectPermissions limit user r)) held) ∧
    (∃ role, t.Finds (Program.resolve (Resolver.effectiveRole limit user r)) role) ∧
    (∃ owns, t.Finds (Program.resolve (Resolver.isOwner user r)) owns) ∧
    ∀ role, ∃ may, t.Finds (Program.resolve (Resolver.canGrantRole limit user r role)) may
  hops_le : ∀ n r a, t.Finds (Program.resolve (Resolver.ancestor n r)) (some a) → n ≤ 21
  folder_hops_le : ∀ n x a,
    t.Finds (Program.resolve (Resolver.ancestor n (.folder x))) (some a) → n ≤ 20

variable {α : Type} {t : Tables} {p : Program α} {a b : α}

theorem finds_iff : t.Finds p a ↔
    ∀ stamp (s : Session), s.tables = t → (s.run stamp p).1 = .ok a := by
  constructor
  · intro h stamp s hs
    rw [← h stamp ⟨.ofNat 0, s⟩ {} hs, (Backend.runIn_memory ..).1]
  · intro h stamp s stores hs
    rw [(Backend.runIn_memory ..).1]
    exact h stamp s.session hs

/-- Sessions on the same tables find the same. -/
theorem finds_iff_eq (h : ∀ stamp (s : Session), s.tables = t → (s.run stamp p).1 = .ok a) :
    t.Finds p b ↔ a = b := by
  rw [finds_iff]
  constructor
  · intro hb
    let stamp : Stamp := ⟨.ofNat 0, 0⟩
    exact Except.ok.inj ((h stamp (.fresh t) rfl).symm.trans (hb stamp (.fresh t) rfl))
  · intro he
    rwa [← he]

theorem finds_resolve {d : Resolution α} (h : d.told t.reply = .ok a) :
    t.Finds (Program.resolve d) b ↔ a = b := by
  apply finds_iff_eq
  intro stamp s hs
  subst hs
  rw [Program.run_resolve, h]
  rfl

theorem finds_isInSubtree {f : Uuid} {r : Resource} {inside : Bool} :
    t.Finds (Program.isInSubtree f r) inside ↔
      (t.containingFolder r).any (t.descendantsOf f).contains = inside := by
  apply finds_iff_eq
  intro stamp s hs
  subst hs
  rw [Program.run_isInSubtree]

theorem finds_ancestor {n : Nat} {r : Resource} {found : Option Resource} :
    t.Finds (Program.resolve (Resolver.ancestor n r)) found ↔ t.ancestor n r = found :=
  finds_resolve ancestor_told

theorem lives_of_mem {f : Folder} (hf : f ∈ t.folders) : t.Lives f.id := lives_iff.mpr ⟨f, hf, rfl⟩

namespace Coherent

variable (h : t.Coherent)

include h

theorem oneTree : t.OneTree where
  rows f hf x n := by
    rw [finds_ancestor]
    exact h.mem_paths (lives_of_mem hf)
  inside f hf r := by
    refine ⟨_, finds_isInSubtree.mpr rfl, ?_⟩
    simp only [finds_ancestor]
    rw [h.any_containingFolder (lives_of_mem hf), h.exists_ancestor]
  passes_down f hf r hin c user hdepth := by
    have hw : t.Within r (.folder f.id) :=
      (h.any_containingFolder (lives_of_mem hf)).mp (finds_isInSubtree.mp hin)
    have hle : Role.height (t.effectiveRole user (.folder f.id)) ≤
        Role.height (t.effectiveRole user r) := height_effectiveRole_le hw
    refine ⟨⟨_, _, (finds_resolve (h.effectiveRole_told hdepth)).mpr rfl,
        (finds_resolve (h.effectiveRole_told hdepth)).mpr rfl, hle⟩,
      _, _, (finds_resolve (h.collectPermissions_told hdepth)).mpr rfl,
        (finds_resolve (h.collectPermissions_told hdepth)).mpr rfl, ?_⟩
    intro p hp
    exact Role.mem_permits.mpr (Nat.le_trans (Role.mem_permits.mp hp) hle)

theorem withinReach : t.WithinReach where
  answers _ hlimit _ _ :=
    ⟨fun _ => ⟨_, (finds_resolve (h.hasPermission_told hlimit)).mpr rfl⟩,
      ⟨_, (finds_resolve (h.collectPermissions_told hlimit)).mpr rfl⟩,
      ⟨_, (finds_resolve (h.effectiveRole_told hlimit)).mpr rfl⟩,
      ⟨_, (finds_resolve isOwner_told).mpr rfl⟩,
      fun _ => ⟨_, (finds_resolve (h.canGrantRole_told hlimit)).mpr rfl⟩⟩
  hops_le _ _ _ hmet := h.ancestor_le (finds_ancestor.mp hmet)
  folder_hops_le _ _ _ hmet := h.ancestor_folder_le (finds_ancestor.mp hmet)

end Coherent

end Tables

namespace World

theorem one_tree {turns : List Turn} (h : ∀ t ∈ turns, t.event.viaCommands) :
    (after turns).All Tables.OneTree :=
  (all_coherent h).mono fun _ ht => ht.oneTree

theorem one_tree_rehearsal : (∀ t ∈ rehearsal, t.event.viaCommands) ∧
    ∃ t : Tables, t = ((after rehearsal).shared.get (.ofNat 7)).tables ∧
      t.folders.map (·.id) = [.ofNat 1, .ofNat 4] ∧
      t.Finds (Program.isInSubtree (.ofNat 1) (.file (.ofNat 60))) true ∧
      (∃ n, t.Finds (Program.resolve (Resolver.ancestor n (.file (.ofNat 60))))
        (some (.folder (.ofNat 1)))) ∧
      (after rehearsal).All Tables.OneTree := by
  have hrun : ∀ t ∈ rehearsal, t.event.viaCommands := by decide
  have hin : ((after rehearsal).shared.get (.ofNat 7)).tables.Finds
      (Program.isInSubtree (.ofNat 1) (.file (.ofNat 60))) true :=
    Tables.finds_isInSubtree.mpr (by decide)
  have htree := one_tree hrun
  obtain ⟨f, hf, hid⟩ :
      ∃ f ∈ ((after rehearsal).shared.get (.ofNat 7)).tables.folders, f.id = .ofNat 1 := by decide
  obtain ⟨inside, hinside, hmet⟩ := (htree.published (.ofNat 7)).inside f hf (.file (.ofNat 60))
  rw [hid] at hinside hmet
  have htrue := (Tables.finds_isInSubtree.mp hinside).symm.trans (Tables.finds_isInSubtree.mp hin)
  exact ⟨hrun, _, rfl, by decide, hin, hmet.mp htrue, htree⟩

theorem within_reach {turns : List Turn} (h : ∀ t ∈ turns, t.event.viaCommands) :
    (after turns).All Tables.WithinReach :=
  (all_coherent h).mono fun _ ht => ht.withinReach

/-- Folders one in the other as deep as it goes, and a file in the last one. The lower half is built
apart and moved below the upper one. -/
def tower : List Turn :=
  let tenant := Uuid.ofNat 7
  let user := Uuid.ofNat 50
  let floor (n : Nat) (parent : Option Nat) : Turn :=
    ⟨21, ⟨.ofNat n, n⟩, .command tenant (.createFolder user "floor" (parent.map Uuid.ofNat))⟩
  floor 1 none :: (List.range 10).map (fun n => floor (n + 2) (some (n + 1))) ++
    floor 12 none :: (List.range 9).map (fun n => floor (n + 13) (some (n + 12))) ++
    [⟨21, ⟨.ofNat 22, 22⟩, .command tenant (.registerFile user (.ofNat 60) (.ofNat 21))⟩,
      ⟨21, ⟨.ofNat 23, 23⟩, .command tenant (.moveFolder user (.ofNat 12) (some (.ofNat 11)))⟩]

theorem within_reach_tower : (∀ t ∈ tower, t.event.viaCommands) ∧
    ∃ t : Tables, t = ((after tower).shared.get (.ofNat 7)).tables ∧
      t.Finds (Program.resolve (Resolver.ancestor 21 (.file (.ofNat 60))))
        (some (.folder (.ofNat 1))) ∧
      (∃ role, t.Finds
        (Program.resolve (Resolver.effectiveRole 21 (.ofNat 51) (.file (.ofNat 60)))) role) ∧
      (Resolver.effectiveRole 20 (.ofNat 51) (.file (.ofNat 60))).told t.reply =
        .error (.maxDepthExceeded 20) := by
  have hrun : ∀ t ∈ tower, t.event.viaCommands := by decide
  obtain ⟨_, _, hrole, _⟩ := ((within_reach hrun).published (.ofNat 7)).answers 21 (Nat.le_refl 21)
    (.ofNat 51) (.file (.ofNat 60))
  obtain ⟨hhops, hshort⟩ :
      ((after tower).shared.get (.ofNat 7)).tables.ancestor 21 (.file (.ofNat 60)) =
        some (.folder (.ofNat 1)) ∧
      (Resolver.effectiveRole 20 (.ofNat 51) (.file (.ofNat 60))).told
        ((after tower).shared.get (.ofNat 7)).tables.reply = .error (.maxDepthExceeded 20) := by
    decide +kernel
  exact ⟨hrun, _, rfl, Tables.finds_ancestor.mpr hhops, hrole, hshort⟩

end World

end DriveAccess
