import Overland.Proofs.Mesh.Recording
import Overland.Proofs.Route.Queries

/-!
# The table of meshes over whole histories

Meshes are loaded by attempts, one in each request to load a mesh and one at the start of each route
that is looked for.  `attempts` lists those of a history, each with the files at its moment, the
states around it and its answer, and over the recorded library the list accounts for the table:
`Tracked` relates the two.  An attempt keeps it (`tracked_attempt`), whatever creates no mesh and
leaves all meshes in their places keeps it (`Tracked.kept`), and so every history keeps it
(`tracked_after`).

`mesh_table` is what follows: no map gets a second mesh, a map has a mesh exactly if an attempt for
it succeeded, and failures leave nothing behind.
-/

namespace Overland.Navigation

variable {σ τ μ : Type}

/-! ## Attempts -/

/-- An attempt to load the mesh of a map: the files at its moment, the states before and after it,
and its answer. -/
structure Attempt (σ τ μ : Type) where
  disk : Disk
  map : UInt32
  before : NavigationState σ τ μ
  after : NavigationState σ τ μ
  answer : Except MeshError μ

/-- The attempt succeeded. -/
def Attempt.Succeeded (a : Attempt σ τ μ) : Prop := ∃ mesh, a.answer = .ok mesh

/-- The attempt that loading a mesh is. -/
def attempt (n : Navigation σ τ μ) (disk : Disk) (map : UInt32) (s : NavigationState σ τ μ) :
    Attempt σ τ μ :=
  ⟨disk, map, s, (n.loadMesh disk map s).2, (n.loadMesh disk map s).1⟩

/-- The attempts that a request makes. -/
def Request.attempts (n : Navigation σ τ μ) (disk : Disk) (s : NavigationState σ τ μ) :
    Request → List (Attempt σ τ μ)
  | .loadMesh map | .findRoute map _ _ => [n.attempt disk map s]
  | .sweep _ _ _ => []

/-- The attempts of a history, in their order. -/
def attempts (n : Navigation σ τ μ) : List (Disk × Request) → NavigationState σ τ μ →
    List (Attempt σ τ μ)
  | [], _ => []
  | (disk, request) :: history, s =>
    request.attempts n disk s ++ n.attempts history (request.make n disk s).2

/-- The map whose mesh a request may change. -/
def Request.owner : Request → UInt32
  | .loadMesh map | .findRoute map _ _ => map
  | .sweep _ _ owner => owner

/-- A request makes one attempt or none. -/
theorem Request.attempts_cases (n : Navigation σ τ μ) (disk : Disk) (s : NavigationState σ τ μ)
    (request : Request) :
    request.attempts n disk s = [] ∨
      request.attempts n disk s = [n.attempt disk request.owner s] := by
  cases request with
  | loadMesh map => exact .inr rfl
  | sweep position map owner => exact .inl rfl
  | findRoute map start goal => exact .inr rfl

theorem eq_attempt_of_mem {n : Navigation σ τ μ} {history : List (Disk × Request)}
    {s : NavigationState σ τ μ} {a : Attempt σ τ μ} (ha : a ∈ n.attempts history s) :
    a = n.attempt a.disk a.map a.before := by
  induction history generalizing s with
  | nil => cases ha
  | cons moment history ih =>
    rcases List.mem_append.1 ha with ha | ha
    · rcases moment.2.attempts_cases n moment.1 s with h | h <;> rw [h] at ha
      · cases ha
      · rw [List.mem_singleton.1 ha]
        rfl
    · exact ih ha

/-! ## Requests change one mesh at most -/

theorem meshIn_loadMesh (n : Navigation σ τ μ) (disk : Disk) {map other : UInt32}
    (hother : other ≠ map) (s : NavigationState σ τ μ) :
    meshIn (n.loadMesh disk map s).2 other = meshIn s other := by
  rcases n.loadMesh_outcomes disk map s with ⟨_, _, hload⟩ | ⟨_, _, _, hload⟩
    | ⟨_, _, _, _, _, _, hload⟩ | ⟨_, _, _, hmap, _, _, _, hload⟩
  · rw [hload]
  · rw [hload]
  · rw [hload]
    rfl
  · rw [hload, meshIn_of_insert rfl hmap, if_neg hother]

/-- A request changes the mesh of its owner alone. -/
theorem meshIn_make (n : Navigation σ τ μ) (disk : Disk) (request : Request) {other : UInt32}
    (hother : other ≠ request.owner) (s : NavigationState σ τ μ) :
    meshIn (request.make n disk s).2 other = meshIn s other := by
  cases request with
  | loadMesh map => exact n.meshIn_loadMesh disk hother s
  | sweep position map owner => exact n.meshIn_sweep disk position map hother s
  | findRoute map start goal =>
    have hline : meshIn (n.findLine disk map start goal s).2 other = meshIn s other :=
      n.preserves_findLine (I := fun t => meshIn t other = meshIn s other) disk map
        (fun t ht => (n.meshIn_loadMesh disk hother t).trans ht)
        (fun position t ht => (n.meshIn_sweep disk position map hother t).trans ht)
        (fun _ _ _ _ ht => ht) start goal s rfl
    have hwalk := meshIn_congr (n.meshes_walk disk map (n.findLine disk map start goal s).1
      (n.findLine disk map start goal s).2)
    change meshIn (n.findRoute disk map start goal s).2 other = meshIn s other
    rw [findRoute_eq, bind_apply, hwalk, hline]

/-- A request whose attempt fails changes no mesh. -/
theorem meshes_of_failed {n : Navigation σ τ μ} {disk : Disk} {request : Request}
    {s : NavigationState σ τ μ} {a : Attempt σ τ μ} (ha : a ∈ request.attempts n disk s)
    (hfailed : ¬ a.Succeeded) : (request.make n disk s).2.meshes = s.meshes := by
  have herror (map : UInt32) (h : ¬ (n.attempt disk map s).Succeeded) :
      ∃ e, (n.loadMesh disk map s).1 = .error e := by
    cases hanswer : (n.loadMesh disk map s).1 with
    | error e => exact ⟨e, rfl⟩
    | ok mesh => exact absurd ⟨mesh, hanswer⟩ h
  cases request with
  | sweep position map owner => cases ha
  | loadMesh map =>
    obtain rfl := List.mem_singleton.1 ha
    obtain ⟨e, he⟩ := herror map hfailed
    exact meshes_of_error he
  | findRoute map start goal =>
    obtain rfl := List.mem_singleton.1 ha
    obtain ⟨e, he⟩ := herror map hfailed
    have hmeshes := meshes_of_error he
    change (n.findRoute disk map start goal s).2.meshes = s.meshes
    unfold findRoute
    rw [bind_apply, he]
    exact hmeshes

/-! ## What creates no mesh -/

/-- From one state to the other no mesh was created, and all meshes stayed in their places. -/
structure Kept (n : Navigation σ τ μ)
    (s t : NavigationState σ (List MeshCall × τ) (NumberedMesh μ)) : Prop where
  meshes : n.recorded.Grew s t
  calls : Since s.library.1 (fun call => call.created? = none) t.library

theorem Kept.refl (n : Navigation σ τ μ)
    (s : NavigationState σ (List MeshCall × τ) (NumberedMesh μ)) : Kept n s s :=
  ⟨n.recorded.grew_of_meshes rfl, since_refl _ s.library⟩

section Kept

variable {s : NavigationState σ (List MeshCall × τ) (NumberedMesh μ)} (n : Navigation σ τ μ)
  (disk : Disk)

theorem kept_sweep (position : MeshPosition) (map owner : UInt32) :
    Preserves (Kept n s) (n.recorded.sweep disk position map owner) := by
  intro t ht
  refine ⟨ht.meshes.trans (n.recorded.grew_sweep disk position map owner t), ?_⟩
  exact n.since_sweep disk (fun _ _ => rfl) position map owner t ht.calls

theorem kept_findCorners (mesh : NumberedMesh μ) (start goal : MeshPosition) :
    Preserves (Kept n s) (askLibrary (findCorners n.recorded.library mesh start goal)) := by
  intro t ht
  refine ⟨ht.meshes.trans (n.recorded.grew_of_meshes rfl), ?_⟩
  refine since_findCorners ?_ n.library mesh start goal t.library ht.calls
  intro call hquery
  cases call <;> first | rfl | cases hquery

theorem kept_walk (map : UInt32) (line : Except Stop (Option (List MeshPosition × Bool))) :
    Preserves (Kept n s) (n.recorded.walk disk map line) := by
  intro t ht
  refine ⟨ht.meshes.trans (n.recorded.grew_of_meshes (n.recorded.meshes_walk disk map line t)), ?_⟩
  rw [n.recorded.library_walk disk map line t]
  exact ht.calls

/-- A route creates no mesh but in its attempt. -/
theorem kept_findRoute (map : UInt32) (start goal : Position)
    (s : NavigationState σ (List MeshCall × τ) (NumberedMesh μ)) :
    Kept n (n.recorded.loadMesh disk map s).2 (n.recorded.findRoute disk map start goal s).2 := by
  rw [findRoute_eq, bind_apply]
  refine n.kept_walk disk map _ _ ?_
  unfold findLine
  rw [bind_apply]
  rcases n.recorded.loadMesh disk map s with ⟨e | mesh, t⟩
  · exact .refl n t
  · have hends : Preserves (Kept n t) (n.recorded.sweepEnds disk map start.toMesh goal.toMesh) :=
      n.recorded.preserves_sweepEnds disk map
        (fun position => n.kept_sweep disk position map map) start.toMesh goal.toMesh
    refine hends.bind (fun swept => ?_) t (.refl n t)
    cases swept with
    | error stop => exact .pure _
    | ok _ =>
      refine .bind (preserves_mesh? map) fun found => ?_
      cases found with
      | none => exact .pure _
      | some mesh =>
        exact .bind (n.kept_findCorners mesh start.toMesh goal.toMesh) fun _ => .pure _

end Kept

/-! ## The account of the table -/

/-- The headers of the meshes that were created in an attempt. -/
def Attempt.created (a : Attempt σ (List MeshCall × τ) (NumberedMesh μ)) : List MeshHeader :=
  (a.after.library.1.drop a.before.library.1.length).filterMap MeshCall.created?

/-- The attempt created the mesh of its map: there was none before, and what it answered was created
by a call for the header that the file of the map had at that moment. -/
structure Attempt.Founds (n : Navigation σ τ μ)
    (a : Attempt σ (List MeshCall × τ) (NumberedMesh μ)) (calls : List MeshCall)
    (header : MeshHeader) (mesh : NumberedMesh μ) : Prop where
  absent : meshIn a.before a.map = none
  read : n.headerFor a.disk a.map = .ok header
  call : calls[mesh.call]? = some (.create header true)
  created : (n.library.create header a.before.library.2).1 = .ok mesh.mesh
  answer : a.answer = .ok mesh

/-- The attempts account for the table of meshes. -/
structure Tracked (n : Navigation σ τ μ)
    (tries : List (Attempt σ (List MeshCall × τ) (NumberedMesh μ)))
    (s : NavigationState σ (List MeshCall × τ) (NumberedMesh μ)) : Prop where
  creations : s.library.1.filterMap MeshCall.created? = tries.flatMap Attempt.created
  once : ∀ map, ((tries.filter fun a => a.map = map).flatMap Attempt.created).length
    = (meshIn s map).toList.length
  succeeded : ∀ a ∈ tries, ∀ mesh, a.answer = .ok mesh →
    ∃ now, meshIn s a.map = some now ∧ n.recorded.library.Grown mesh now
  founded : ∀ map now, meshIn s map = some now → ∃ a ∈ tries, a.map = map ∧
    ∃ header mesh, a.Founds n s.library.1 header mesh ∧ n.recorded.library.Grown mesh now

section Tracked

variable {n : Navigation σ τ μ} {tries : List (Attempt σ (List MeshCall × τ) (NumberedMesh μ))}
  {s t : NavigationState σ (List MeshCall × τ) (NumberedMesh μ)}

theorem tracked_fresh (n : Navigation σ τ μ) (collision : σ) (library : τ) :
    Tracked n [] (fresh collision ([], library)) where
  creations := rfl
  once map := by simp [meshIn, fresh]
  succeeded := nofun
  founded map now h := by simp [meshIn, fresh] at h

theorem Attempt.Founds.append {a : Attempt σ (List MeshCall × τ) (NumberedMesh μ)}
    {calls : List MeshCall} {header : MeshHeader} {mesh : NumberedMesh μ}
    (h : a.Founds n calls header mesh) (new : List MeshCall) :
    a.Founds n (calls ++ new) header mesh := by
  obtain ⟨hlt, -⟩ := List.getElem?_eq_some_iff.1 h.call
  exact { h with call := by rw [List.getElem?_append_left hlt, h.call] }

/-- What creates no mesh and leaves all meshes in their places keeps the account. -/
theorem Tracked.kept (h : Tracked n tries s) (hkept : Kept n s t) : Tracked n tries t := by
  obtain ⟨new, hnew, hnone⟩ := hkept.calls
  constructor
  case creations =>
    rw [hnew, List.filterMap_append, List.filterMap_eq_nil_iff.2 hnone, List.append_nil,
      h.creations]
  case once =>
    intro map
    rw [h.once map]
    exact hkept.meshes.length_toList map
  case succeeded =>
    intro a ha mesh hmesh
    obtain ⟨now, hnow, hgrown⟩ := h.succeeded a ha mesh hmesh
    obtain ⟨later, hlater, hgrown'⟩ := hkept.meshes.exists_after hnow
    exact ⟨later, hlater, hgrown.trans hgrown'⟩
  case founded =>
    intro map later hlater
    obtain ⟨now, hnow, hgrown'⟩ := hkept.meshes.exists_before hlater
    obtain ⟨a, ha, hmap, header, mesh, hfounds, hgrown⟩ := h.founded map now hnow
    exact ⟨a, ha, hmap, header, mesh, hnew ▸ hfounds.append new, hgrown.trans hgrown'⟩

/-- An attempt that creates no mesh keeps the account, if it answers the mesh that is there. -/
theorem Tracked.attempt_kept (h : Tracked n tries s)
    {a : Attempt σ (List MeshCall × τ) (NumberedMesh μ)} (hbefore : a.before = s)
    (hkept : Kept n s a.after)
    (hanswer : ∀ mesh, a.answer = .ok mesh → meshIn s a.map = some mesh) :
    Tracked n (tries ++ [a]) a.after := by
  have hcreated : a.created = [] := by
    obtain ⟨new, hnew, hnone⟩ := hkept.calls
    rw [Attempt.created, hnew, hbefore, List.drop_left]
    exact List.filterMap_eq_nil_iff.2 hnone
  have h := h.kept hkept
  constructor
  case creations => simp [h.creations, hcreated]
  case once =>
    intro map
    rw [← h.once map, List.filter_append, List.flatMap_append]
    by_cases hmap : a.map = map <;> simp [hmap, hcreated]
  case succeeded =>
    intro b hb mesh hmesh
    rcases List.mem_append.1 hb with hb | hb
    · exact h.succeeded b hb mesh hmesh
    · obtain rfl := List.mem_singleton.1 hb
      exact hkept.meshes.exists_after (hanswer mesh hmesh)
  case founded =>
    intro map now hnow
    obtain ⟨b, hb, hfounds⟩ := h.founded map now hnow
    exact ⟨b, List.mem_append_left _ hb, hfounds⟩

/-- An attempt that creates a mesh keeps the account. -/
theorem Tracked.attempt_created (h : Tracked n tries s)
    {a : Attempt σ (List MeshCall × τ) (NumberedMesh μ)} (hbefore : a.before = s)
    {header : MeshHeader} {mesh : NumberedMesh μ}
    (hcalls : a.after.library.1 = s.library.1 ++ [.create header true])
    (hmeshes : ∀ map, meshIn a.after map = if map = a.map then some mesh else meshIn s map)
    (hfounds : a.Founds n a.after.library.1 header mesh) :
    Tracked n (tries ++ [a]) a.after := by
  have hcreated : a.created = [header] := by
    rw [Attempt.created, hcalls, hbefore, List.drop_left]
    rfl
  have habsent : meshIn s a.map = none := hbefore ▸ hfounds.absent
  constructor
  case creations =>
    rw [hcalls, List.filterMap_append, h.creations, List.flatMap_append]
    simp [hcreated, MeshCall.created?]
  case once =>
    intro map
    have honce := h.once map
    rw [List.filter_append, List.flatMap_append, List.length_append, honce, hmeshes map]
    by_cases hmap : map = a.map
    · subst hmap
      simp [habsent, hcreated]
    · simp [hmap, Ne.symm hmap]
  case succeeded =>
    intro b hb found hfound
    rcases List.mem_append.1 hb with hb | hb
    · obtain ⟨now, hnow, hgrown⟩ := h.succeeded b hb found hfound
      refine ⟨now, ?_, hgrown⟩
      rw [hmeshes, if_neg ?_, hnow]
      intro hmap
      rw [hmap, habsent] at hnow
      cases hnow
    · obtain rfl := List.mem_singleton.1 hb
      rw [hfounds.answer] at hfound
      cases hfound
      exact ⟨mesh, by rw [hmeshes, if_pos rfl], .refl⟩
  case founded =>
    intro map now hnow
    rw [hmeshes] at hnow
    by_cases hmap : map = a.map
    · rw [if_pos hmap] at hnow
      cases hnow
      exact ⟨a, by simp, hmap.symm, header, mesh, hfounds, .refl⟩
    · rw [if_neg hmap] at hnow
      obtain ⟨b, hb, hbmap, header', mesh', hbfounds, hgrown⟩ := h.founded map now hnow
      exact ⟨b, List.mem_append_left _ hb, hbmap, header', mesh', hcalls ▸ hbfounds.append _,
        hgrown⟩

/-- **An attempt keeps the account.** -/
theorem tracked_attempt (h : Tracked n tries s) (disk : Disk) (map : UInt32) :
    Tracked n (tries ++ [n.recorded.attempt disk map s]) (n.recorded.loadMesh disk map s).2 := by
  change Tracked n _ (n.recorded.attempt disk map s).after
  rcases n.recorded.loadMesh_outcomes disk map s with ⟨mesh, hmesh, hload⟩ | ⟨e, -, -, hload⟩
    | ⟨header, status, t, -, -, hcreate, hload⟩
    | ⟨header, mesh, t, hmap, habsent, hheader, hcreate, hload⟩
  case inl =>
    refine h.attempt_kept rfl ?_ ?_
    · simp only [attempt, hload]
      exact .refl n s
    · simp only [attempt, hload]
      rintro _ ⟨⟩
      exact hmesh
  case inr.inl =>
    refine h.attempt_kept rfl ?_ ?_
    · simp only [attempt, hload]
      exact .refl n s
    · simp only [attempt, hload]
      exact nofun
  case inr.inr.inl =>
    refine h.attempt_kept rfl ?_ ?_
    · simp only [attempt, hload]
      refine ⟨n.recorded.grew_of_meshes rfl, [.create header false],
        MeshLibrary.create_refused hcreate, ?_⟩
      simp [MeshCall.created?]
    · simp only [attempt, hload]
      exact nofun
  case inr.inr.inr =>
    obtain ⟨hcreated, hcall, hcalls⟩ := MeshLibrary.create_accepted hcreate
    have hmeshes (other : UInt32) : meshIn (n.recorded.attempt disk map s).after other
        = if other = map then some mesh else meshIn s other := by
      simp only [attempt, hload]
      exact meshIn_of_insert rfl hmap other
    have hcalls : (n.recorded.attempt disk map s).after.library.1
        = s.library.1 ++ [.create header true] := by
      simp only [attempt, hload]
      exact hcalls
    refine h.attempt_created rfl hcalls hmeshes ⟨habsent, hheader, ?_, hcreated, ?_⟩
    · rw [hcalls, hcall]
      simp
    · simp only [attempt, hload]

/-- A request keeps the account. -/
theorem tracked_make (h : Tracked n tries s) (disk : Disk) (request : Request) :
    Tracked n (tries ++ request.attempts n.recorded disk s)
      (request.make n.recorded disk s).2 := by
  cases request with
  | loadMesh map => exact tracked_attempt h disk map
  | sweep position map owner =>
    change Tracked n (tries ++ []) _
    rw [List.append_nil]
    exact h.kept (n.kept_sweep disk position map owner s (.refl n s))
  | findRoute map start goal =>
    exact (tracked_attempt h disk map).kept (n.kept_findRoute disk map start goal s)

/-- **A history keeps the account.** -/
theorem tracked_after (h : Tracked n tries s) (history : List (Disk × Request)) :
    Tracked n (tries ++ n.recorded.attempts history s) (n.recorded.after history s) := by
  induction history generalizing tries s with
  | nil =>
    rw [attempts, List.append_nil]
    exact h
  | cons moment history ih =>
    rw [attempts, ← List.append_assoc]
    exact ih (tracked_make h moment.1 moment.2)

/-- Before each attempt the ones before it account for the table. -/
theorem tracked_before (h : Tracked n tries s) {history : List (Disk × Request)}
    {earlier later : List (Attempt σ (List MeshCall × τ) (NumberedMesh μ))}
    {a : Attempt σ (List MeshCall × τ) (NumberedMesh μ)}
    (hsplit : n.recorded.attempts history s = earlier ++ a :: later) :
    Tracked n (tries ++ earlier) a.before := by
  induction history generalizing tries s earlier with
  | nil => simp [attempts] at hsplit
  | cons moment history ih =>
    have hstep := tracked_make h moment.1 moment.2
    rw [attempts] at hsplit
    rcases moment.2.attempts_cases n.recorded moment.1 s with hnone | hone
    · rw [hnone, List.append_nil] at hstep
      rw [hnone] at hsplit
      exact ih hstep hsplit
    · rw [hone] at hstep hsplit
      cases earlier with
      | nil =>
        obtain ⟨rfl, -⟩ := List.cons.inj hsplit
        rw [List.append_nil]
        exact h
      | cons first earlier =>
        obtain ⟨rfl, hrest⟩ := List.cons.inj hsplit
        rw [List.append_cons]
        exact ih hstep hrest

theorem Tracked.isSome_iff (h : Tracked n tries s) (map : UInt32) :
    (meshIn s map).isSome ↔ ∃ a ∈ tries, a.map = map ∧ a.Succeeded := by
  constructor
  · intro hsome
    obtain ⟨now, hnow⟩ := Option.isSome_iff_exists.1 hsome
    obtain ⟨a, ha, hmap, header, mesh, hfounds, -⟩ := h.founded map now hnow
    exact ⟨a, ha, hmap, mesh, hfounds.answer⟩
  · rintro ⟨a, ha, rfl, mesh, hmesh⟩
    obtain ⟨now, hnow, -⟩ := h.succeeded a ha mesh hmesh
    rw [hnow]
    rfl

/-- As long as no attempt for a map has succeeded, it has no mesh. -/
theorem Tracked.absent (h : Tracked n tries s) {map : UInt32}
    (hfailed : ∀ a ∈ tries, a.map = map → ¬ a.Succeeded) : meshIn s map = none := by
  cases hmesh : meshIn s map with
  | none => rfl
  | some mesh =>
    obtain ⟨a, ha, hmap, hsucceeded⟩ := (h.isSome_iff map).1 (by rw [hmesh]; rfl)
    exact absurd hsucceeded (hfailed a ha hmap)

end Tracked

/-! ## The table -/

/-- Attempts are answered as they would be without the record. -/
theorem answers_recorded (n : Navigation σ τ μ) (history : List (Disk × Request))
    {s : NavigationState σ (List MeshCall × τ) (NumberedMesh μ)} {t : NavigationState σ τ μ}
    (h : Plainly s t) :
    (n.attempts history t).map (fun a => (a.disk, a.map, a.answer))
      = (n.recorded.attempts history s).map
          fun a => (a.disk, a.map, a.answer.map NumberedMesh.mesh) := by
  induction history generalizing s t with
  | nil => rfl
  | cons moment history ih =>
    obtain ⟨disk, request⟩ := moment
    have hanswer (map : UInt32) :
        (n.loadMesh disk map t).1 = (n.recorded.loadMesh disk map s).1.map NumberedMesh.mesh :=
      (n.follows_loadMesh disk map s t h).1
    have hfirst : (request.attempts n disk t).map (fun a => (a.disk, a.map, a.answer))
        = (request.attempts n.recorded disk s).map
            fun a => (a.disk, a.map, a.answer.map NumberedMesh.mesh) := by
      cases request <;> simp [Request.attempts, attempt, hanswer]
    rw [attempts, attempts, List.map_append, List.map_append, hfirst,
      ih (n.follows_make disk request s t h).2]

/-- **The table of meshes** after any history of requests, over any files and any answers of the
library.

The meshes that were created are those that were created in attempts, at most one in all attempts
for a map.  A map has a mesh exactly if an attempt for it succeeded, and that is, whatever comes
later, the one that each success answered, grown by tiles since.  It was created in one of the
attempts, from the header that was read in that attempt.  A request whose attempt fails changes no
mesh, and as long as no attempt for a map has succeeded the next one goes by the file as it is then.
No request changes the mesh of a map that is not its own.  The record that tells all this changes
nothing: without it, the attempts are answered the same and leave the same meshes. -/
theorem mesh_table (n : Navigation σ τ μ) (collision : σ) (library : τ)
    (history : List (Disk × Request)) :
    let start := fresh collision ([], library)
    let tries := n.recorded.attempts history start
    let s := n.recorded.after history start
    (s.library.1.filterMap MeshCall.created? = tries.flatMap Attempt.created ∧
      ∀ map, ((tries.filter fun a => a.map = map).flatMap Attempt.created).length ≤ 1) ∧
    (∀ map, (mesh? map s).1.isSome ↔ ∃ a ∈ tries, a.map = map ∧ a.Succeeded) ∧
    (∀ a ∈ tries, ∀ mesh, a.answer = .ok mesh → ∀ later,
      ∃ now, (mesh? a.map (n.recorded.after later s)).1 = some now ∧ now.call = mesh.call ∧
        n.library.Grown mesh.mesh now.mesh) ∧
    (∀ map now, (mesh? map s).1 = some now → ∃ a ∈ tries, a.map = map ∧
      ∃ header mesh, a.Founds n s.library.1 header mesh ∧ now.call = mesh.call ∧
        n.library.Grown mesh.mesh now.mesh) ∧
    (∀ disk (request : Request), ∀ a ∈ request.attempts n.recorded disk s, ¬ a.Succeeded →
      (request.make n.recorded disk s).2.meshes = s.meshes) ∧
    (∀ earlier a later, tries = earlier ++ a :: later →
      (∀ b ∈ earlier, b.map = a.map → ¬ b.Succeeded) →
      a.answer = n.recorded.opening a.disk a.map a.before.library) ∧
    (∀ disk (request : Request) map, map ≠ request.owner →
      (mesh? map (request.make n.recorded disk s).2).1 = (mesh? map s).1) ∧
    (n.attempts history (fresh collision library)).map (fun a => (a.disk, a.map, a.answer))
      = tries.map (fun a => (a.disk, a.map, a.answer.map NumberedMesh.mesh)) ∧
    (∀ map, (mesh? map (n.after history (fresh collision library))).1
      = (mesh? map s).1.map NumberedMesh.mesh) := by
  intro start tries s
  have htracked : Tracked n tries s := tracked_after (tracked_fresh n collision library) history
  have hplain := n.plainly_after (plainly_fresh collision library) history
  refine ⟨⟨htracked.creations, fun map => ?_⟩, htracked.isSome_iff, ?_, ?_,
    fun disk request a ha hfailed => meshes_of_failed ha hfailed, ?_,
    fun disk request map hmap => n.recorded.meshIn_make disk request hmap s,
    n.answers_recorded history (plainly_fresh collision library),
    fun map => (follows_mesh? map s _ hplain).1⟩
  · rw [htracked.once map]
    cases meshIn s map <;> simp
  · intro a ha mesh hmesh later
    obtain ⟨now, hnow, hgrown⟩ :=
      (tracked_after htracked later).succeeded a (List.mem_append_left _ ha) mesh hmesh
    exact ⟨now, hnow, hgrown.of_recorded⟩
  · intro map now hnow
    obtain ⟨a, ha, hmap, header, mesh, hfounds, hgrown⟩ := htracked.founded map now hnow
    exact ⟨a, ha, hmap, header, mesh, hfounds, hgrown.of_recorded⟩
  · intro earlier a later hsplit hearlier
    have hbefore : Tracked n earlier a.before :=
      tracked_before (tracked_fresh n collision library) hsplit
    have ha : a ∈ tries := hsplit ▸ List.mem_append_right _ List.mem_cons_self
    rw [eq_attempt_of_mem ha]
    exact answer_of_absent (hbefore.absent hearlier)

end Overland.Navigation
