import SniRouter.Lib.Arc
import SniRouter.Lib.Run
import SniRouter.Lib.Table
import SniRouter.Tcp.AddrText

/-!
# The shared resolver

Backend addresses that are not numeric are looked up with one resolver for the whole process. It
is made by the first lookup that needs it, which may race with others; a task reloads the hosts
file while lookups are under way. A lookup keeps a handle to the resolver it has found, and a
reload replaces the resolver by a changed copy when somebody holds such a handle. The first part
of the module follows the source, with its handles. `SharedResolver` says what they are for:
lookups keep the resolver itself. The one refines the other (`step_refines`), so a lookup is
answered by the resolver of one moment (`lookups_atomic`).
-/

namespace SniRouter

/-- `std::net::IpAddr`. -/
inductive IpAddr where
  | v4 (ip : Ipv4Addr)
  | v6 (ip : Ipv6Addr)
deriving DecidableEq

/-- `SocketAddr::new`. -/
def IpAddr.withPort (port : ℕ) : IpAddr → SocketAddr
  | .v4 ip => .v4 ip (UInt16.ofNat port)
  | .v6 ip => .v6 ip (UInt16.ofNat port) 0 0

/-- `hickory_resolver`: resolvers `R` and hosts files `H`. An answer depends on the resolver and
on what is outside of it, `W`: the name servers, and the cache that its copies share. -/
structure Hickory (R H W : Type) where
  setHosts : H → R → R
  lookupIp : R → List Char → W → Except String (List IpAddr)

/-- The host and the port of an address that is not numeric. -/
def splitAddr (addr : List Char) : Except String (List Char × ℕ) :=
  match Tcp.rsplitOnce ':' addr with
  | none => .error "backend address missing port"
  | some (host, port) =>
    match Tcp.parseU16 port with
    | none => .error "invalid backend port"
    | some port => .ok (host, port)

/-- Where a `lookup_host` stands. -/
inductive LookupPc (ρ : Type) where
  /-- `shared` has found no resolver and makes one. -/
  | building (host : List Char) (port : ℕ)
  /-- `shared` has returned. -/
  | shared (host : List Char) (port : ℕ)
  /-- `lookup_ip` is under way on the resolver that `snapshot` has returned. -/
  | waiting (host : List Char) (port : ℕ) (resolver : ρ)
  | done (result : Except String (List SocketAddr))
  | dropped

/-- `lookup_host` up to its first look at `RESOLVER`. -/
def lookupHost {ρ : Type} (initialized : Bool) (addr : List Char) : LookupPc ρ :=
  match Tcp.parseSocketAddr addr with
  | some addr => .done (.ok [addr])
  | none =>
    match splitAddr addr with
    | .error e => .done (.error e)
    | .ok (host, port) => if initialized then .shared host port else .building host port

section Model

variable {R H W : Type}

/-- The end of `lookup_host`. -/
def answer (env : Hickory R H W) (r : R) (host : List Char) (port : ℕ) (world : W) :
    Except String (List SocketAddr) :=
  (env.lookupIp r host world).map fun ips => ips.map (IpAddr.withPort port)

inductive ResolverEvent (R H W : Type) where
  /-- `start_hosts_reload`, with the resolver that its `shared` makes when it finds none. -/
  | startHostsReload (built : Except String R)
  | call (id : ℕ) (addr : List Char)
  /-- The resolver that `shared` wants has been made, or not. -/
  | build (id : ℕ) (built : Except String R)
  | snapshot (id : ℕ)
  /-- `lookup_ip` returns. -/
  | finish (id : ℕ) (world : W)
  /-- The future is dropped. -/
  | cancel (id : ℕ)
  /-- `reload_hosts` has read the hosts file, or not. -/
  | reload (hosts : Except String H)

/-! ## With handles -/

/-- `RESOLVER` and the lookups. -/
structure Resolving (R : Type) where
  heap : ArcHeap R
  resolver : Option ℕ
  lookups : Table ℕ (LookupPc ℕ)

namespace Resolving

def start : Resolving R := ⟨.empty, none, ∅⟩

def setPc (s : Resolving R) (id : ℕ) (pc : LookupPc ℕ) : Resolving R :=
  { s with lookups := s.lookups.insert id pc }

def call (s : Resolving R) (id : ℕ) (addr : List Char) : Resolving R :=
  if (s.lookups.lookup id).isSome then s
  else s.setPc id (lookupHost s.resolver.isSome addr)

/-- `OnceLock::set` at the end of `shared`: the first resolver stays. -/
def install (s : Resolving R) (r : R) : Resolving R :=
  match s.resolver with
  | some _ => s
  | none => { s with heap := (s.heap.new r).2, resolver := some (s.heap.new r).1 }

def startHostsReload (s : Resolving R) (built : Except String R) : Resolving R :=
  match built with
  | .error _ => s
  | .ok r => s.install r

def build (s : Resolving R) (id : ℕ) (built : Except String R) : Resolving R :=
  match s.lookups.lookup id with
  | some (.building host port) =>
    match built with
    | .error e => s.setPc id (.done (.error e))
    | .ok r => (s.install r).setPc id (.shared host port)
  | _ => s

def snapshot (s : Resolving R) (id : ℕ) : Resolving R :=
  match s.lookups.lookup id, s.resolver with
  | some (.shared host port), some i =>
    { s with heap := s.heap.clone i }.setPc id (.waiting host port i)
  | _, _ => s

def finish (env : Hickory R H W) (s : Resolving R) (id : ℕ) (world : W) : Resolving R :=
  match s.lookups.lookup id with
  | some (.waiting host port i) =>
    match s.heap.get i with
    | some r =>
      { s with heap := s.heap.drop i }.setPc id (.done (answer env r host port world))
    | none => s
  | _ => s

def cancel (s : Resolving R) (id : ℕ) : Resolving R :=
  match s.lookups.lookup id with
  | some (.waiting _ _ i) => { s with heap := s.heap.drop i }.setPc id .dropped
  | some (.building ..) | some (.shared ..) => s.setPc id .dropped
  | _ => s

/-- `reload_hosts`. -/
def reload (env : Hickory R H W) (s : Resolving R) (hosts : Except String H) : Resolving R :=
  match hosts, s.resolver with
  | .ok hosts, some i =>
    { s with
      heap := (s.heap.makeMut i).2.modify (s.heap.makeMut i).1 (env.setHosts hosts)
      resolver := some (s.heap.makeMut i).1 }
  | _, _ => s

def step (env : Hickory R H W) (s : Resolving R) : ResolverEvent R H W → Resolving R
  | .startHostsReload built => s.startHostsReload built
  | .call id addr => s.call id addr
  | .build id built => s.build id built
  | .snapshot id => s.snapshot id
  | .finish id world => s.finish env id world
  | .cancel id => s.cancel id
  | .reload hosts => s.reload env hosts

def run (env : Hickory R H W) (es : List (ResolverEvent R H W)) : Resolving R :=
  runFrom (step env) start es

/-- The resolver behind `RESOLVER`. -/
def current (s : Resolving R) : Option R := s.resolver.bind s.heap.get

end Resolving

/-! ## With resolvers -/

/-- What the process has to look like to its lookups: one resolver, that a lookup may keep as it
was. -/
structure SharedResolver (R : Type) where
  resolver : Option R
  lookups : Table ℕ (LookupPc R)

namespace SharedResolver

def start : SharedResolver R := ⟨none, ∅⟩

def setPc (t : SharedResolver R) (id : ℕ) (pc : LookupPc R) : SharedResolver R :=
  { t with lookups := t.lookups.insert id pc }

def step (env : Hickory R H W) (t : SharedResolver R) : ResolverEvent R H W → SharedResolver R
  | .startHostsReload (.ok r) => { t with resolver := some (t.resolver.getD r) }
  | .startHostsReload (.error _) => t
  | .call id addr =>
    if (t.lookups.lookup id).isSome then t else t.setPc id (lookupHost t.resolver.isSome addr)
  | .build id built =>
    match t.lookups.lookup id, built with
    | some (.building ..), .error e => t.setPc id (.done (.error e))
    | some (.building host port), .ok r =>
      { t with resolver := some (t.resolver.getD r) }.setPc id (.shared host port)
    | _, _ => t
  | .snapshot id =>
    match t.lookups.lookup id, t.resolver with
    | some (.shared host port), some r => t.setPc id (.waiting host port r)
    | _, _ => t
  | .finish id world =>
    match t.lookups.lookup id with
    | some (.waiting host port r) => t.setPc id (.done (answer env r host port world))
    | _ => t
  | .cancel id =>
    match t.lookups.lookup id with
    | some (.building ..) | some (.shared ..) | some (.waiting ..) => t.setPc id .dropped
    | _ => t
  | .reload (.ok hosts) => { t with resolver := t.resolver.map (env.setHosts hosts) }
  | .reload (.error _) => t

def run (env : Hickory R H W) (es : List (ResolverEvent R H W)) : SharedResolver R :=
  runFrom (step env) start es

end SharedResolver

/-! ## Handles -/

/-- The handles of a lookup. -/
def LookupPc.handles : LookupPc ℕ → ℕ → ℕ
  | .waiting _ _ i => oneHandle i
  | _ => 0

/-- A lookup with the resolver behind its handle. -/
def LookupPc.view (heap : ArcHeap R) : LookupPc ℕ → Option (LookupPc R)
  | .building host port => some (.building host port)
  | .shared host port => some (.shared host port)
  | .waiting host port i => (heap.get i).map (LookupPc.waiting host port)
  | .done result => some (.done result)
  | .dropped => some .dropped

namespace Resolving

open ArcHeap

variable {s : Resolving R} {t : SharedResolver R} {id : ℕ} {pc : LookupPc ℕ}

/-- The handle in `RESOLVER`. -/
def staticHandles (s : Resolving R) : ℕ → ℕ := s.resolver.elim 0 oneHandle

/-- The handles of all lookups. -/
def lookupHandles (lookups : Table ℕ (LookupPc ℕ)) : ℕ → ℕ :=
  fun i => lookups.total fun _ pc => pc.handles i

def handles (s : Resolving R) : ℕ → ℕ := s.staticHandles + lookupHandles s.lookups

/-- All handles but those of the lookup `id`. -/
def others (s : Resolving R) (id : ℕ) : ℕ → ℕ :=
  s.staticHandles + lookupHandles (s.lookups.erase id)

theorem handles_eq (h : s.lookups.lookup id = some pc) :
    s.handles = s.others id + pc.handles := by
  funext i
  have htotal := Table.total_erase_add (fun _ (pc : LookupPc ℕ) => pc.handles i) s.lookups id
  rw [h] at htotal
  have htotal : lookupHandles (s.lookups.erase id) i + pc.handles i =
      lookupHandles s.lookups i := htotal
  show s.staticHandles i + lookupHandles s.lookups i =
    s.staticHandles i + lookupHandles (s.lookups.erase id) i + pc.handles i
  omega

theorem handles_of_none (h : s.lookups.lookup id = none) : s.handles = s.others id := by
  funext i
  have htotal := Table.total_erase_add (fun _ (pc : LookupPc ℕ) => pc.handles i) s.lookups id
  rw [h] at htotal
  have htotal : lookupHandles (s.lookups.erase id) i + 0 = lookupHandles s.lookups i := htotal
  show s.staticHandles i + lookupHandles s.lookups i =
    s.staticHandles i + lookupHandles (s.lookups.erase id) i
  omega

/-- Moving one lookup on leaves the handles of the others. -/
theorem handles_setPc (s : Resolving R) (id : ℕ) (pc : LookupPc ℕ) :
    (s.setPc id pc).handles = s.others id + pc.handles := by
  funext i
  have htotal := Table.total_insert (fun _ (pc : LookupPc ℕ) => pc.handles i) s.lookups id pc
  have htotal : lookupHandles (s.lookups.insert id pc) i =
      lookupHandles (s.lookups.erase id) i + pc.handles i := htotal
  show s.staticHandles i + lookupHandles (s.lookups.insert id pc) i =
    s.staticHandles i + lookupHandles (s.lookups.erase id) i + pc.handles i
  omega

/-- A lookup that waits keeps its resolver alive, whatever happens to another lookup. -/
theorem others_pos {id' : ℕ} {host : List Char} {port i : ℕ} (hne : id' ≠ id)
    (h : s.lookups.lookup id' = some (.waiting host port i)) : 0 < s.others id i := by
  have herase : (s.lookups.erase id).lookup id' = some (.waiting host port i) := by
    rw [Table.lookup_erase, if_neg hne]
    exact h
  have hle := Table.le_total (f := fun _ (pc : LookupPc ℕ) => pc.handles i) herase
  have hone : (LookupPc.waiting host port i).handles i = 1 := if_pos rfl
  have hle : (LookupPc.waiting host port i).handles i ≤
      lookupHandles (s.lookups.erase id) i := hle
  show 0 < s.staticHandles i + lookupHandles (s.lookups.erase id) i
  omega

theorem handles_pos {host : List Char} {port i : ℕ}
    (h : s.lookups.lookup id = some (.waiting host port i)) : 0 < s.handles i := by
  rw [handles_eq h]
  have hone : (LookupPc.waiting host port i).handles i = 1 := if_pos rfl
  show 0 < s.others id i + (LookupPc.waiting host port i).handles i
  omega

theorem static_pos {i : ℕ} (h : s.resolver = some i) (rest : ℕ → ℕ) :
    0 < (s.staticHandles + rest) i := by
  unfold staticHandles
  rw [h]
  show 0 < (if i = i then 1 else 0) + rest i
  rw [if_pos rfl]
  omega

/-! ## Refinement -/

/-- The cells are those of the handles, and what they show is what the lookups keep. -/
structure Refines (s : Resolving R) (t : SharedResolver R) : Prop where
  counts : Counts s.heap s.handles
  resolver : t.resolver = s.current
  lookups : ∀ id, t.lookups.lookup id = (s.lookups.lookup id).bind (LookupPc.view s.heap)

/-- Both start without a resolver. -/
theorem start_refines : Refines (start : Resolving R) SharedResolver.start :=
  ⟨empty_counts, rfl, fun _ => rfl⟩

theorem view_congr {heap heap' : ArcHeap R} {pc : Option (LookupPc ℕ)}
    (h : ∀ host port i, pc = some (.waiting host port i) → heap'.get i = heap.get i) :
    pc.bind (LookupPc.view heap') = pc.bind (LookupPc.view heap) := by
  cases pc with
  | none => rfl
  | some pc =>
    cases pc with
    | waiting host port i =>
      show (heap'.get i).map _ = (heap.get i).map _
      rw [h host port i rfl]
    | building => rfl
    | shared => rfl
    | done => rfl
    | dropped => rfl

/-- A step that moves the lookup `id` on, and may take or give back handles for it. -/
theorem Refines.setPc {heap : ArcHeap R} {pc : LookupPc ℕ} {pc' : LookupPc R}
    (h : Refines s t) (hcounts : Counts heap (s.others id + pc.handles))
    (hkept : ∀ i, 0 < s.others id i → heap.get i = s.heap.get i)
    (hview : pc.view heap = some pc') :
    Refines ({ s with heap := heap }.setPc id pc) (t.setPc id pc') := by
  refine ⟨?_, ?_, fun id' => ?_⟩
  · show Counts heap ({ s with heap := heap }.setPc id pc).handles
    rw [handles_setPc]
    exact hcounts
  · show t.resolver = s.resolver.bind heap.get
    rw [h.resolver, current]
    cases hres : s.resolver with
    | none => rfl
    | some i => exact (hkept i (static_pos hres _)).symm
  · show (t.lookups.insert id pc').lookup id' = ((s.lookups.insert id pc).lookup id').bind _
    rw [Table.lookup_insert, Table.lookup_insert]
    split
    · exact hview.symm
    · rename_i hne
      rw [h.lookups id']
      exact (view_congr fun host port i hwait => hkept i (others_pos hne hwait)).symm

/-- The same without handles. -/
theorem Refines.setPc_same {pc : LookupPc ℕ} {pc' : LookupPc R} (h : Refines s t)
    (hold : s.handles = s.others id) (hnew : pc.handles = 0)
    (hview : pc.view s.heap = some pc') : Refines (s.setPc id pc) (t.setPc id pc') := by
  have hcounts := h.counts
  rw [hold, ← add_zero (s.others id), ← hnew] at hcounts
  exact h.setPc hcounts (fun _ _ => rfl) hview

/-- The first resolver that is built is kept by both. -/
theorem Refines.install (h : Refines s t) (r : R) :
    Refines (s.install r) { t with resolver := some (t.resolver.getD r) } := by
  unfold Resolving.install
  split
  · rename_i i hres
    obtain ⟨r', -, hget⟩ := h.counts.cell_eq (static_pos hres _)
    have hcurrent : t.resolver = some r' := by
      rw [h.resolver, current, hres]
      exact hget
    refine ⟨h.counts, ?_, h.lookups⟩
    rw [← h.resolver, hcurrent]
    rfl
  · rename_i hres
    obtain ⟨hcounts, hshows, hkept⟩ := new_counts h.counts r
    refine ⟨?_, ?_, fun id => ?_⟩
    · have hhandles : s.handles + oneHandle (s.heap.new r).1 =
          oneHandle (s.heap.new r).1 + lookupHandles s.lookups := by
        unfold handles staticHandles
        rw [hres]
        funext i
        show 0 + _ + _ = _ + _
        omega
      rw [hhandles] at hcounts
      exact hcounts
    · have hcurrent : t.resolver = none := by
        rw [h.resolver, current, hres]
        rfl
      show some (t.resolver.getD r) = (s.heap.new r).2.get (s.heap.new r).1
      rw [hcurrent, hshows]
      rfl
    · show t.lookups.lookup id = (s.lookups.lookup id).bind (LookupPc.view (s.heap.new r).2)
      rw [h.lookups id]
      exact (view_congr fun host port i hwait => hkept i (handles_pos hwait)).symm

theorem lookupHost_handles (initialized : Bool) (addr : List Char) :
    (lookupHost initialized addr : LookupPc ℕ).handles = 0 := by
  unfold lookupHost
  split
  · rfl
  · split
    · rfl
    · split <;> rfl

theorem lookupHost_view (heap : ArcHeap R) (initialized : Bool) (addr : List Char) :
    (lookupHost initialized addr).view heap = some (lookupHost initialized addr) := by
  unfold lookupHost
  split
  · rfl
  · split
    · rfl
    · split <;> rfl

section Steps

variable {env : Hickory R H W}

/-- There is a resolver in both, or in neither. -/
theorem Refines.isSome_resolver (h : Refines s t) :
    s.resolver.isSome = t.resolver.isSome := by
  rw [h.resolver, current]
  cases hres : s.resolver with
  | none => rfl
  | some i =>
    obtain ⟨r, -, hget⟩ := h.counts.cell_eq (static_pos hres _)
    show true = (s.heap.get i).isSome
    rw [hget]
    rfl

theorem Refines.call (h : Refines s t) (id : ℕ) (addr : List Char) :
    Refines (s.call id addr) (t.step env (.call id addr)) := by
  have hlook := h.lookups id
  unfold Resolving.call
  cases hs : s.lookups.lookup id with
  | some pc =>
    have ht : (t.lookups.lookup id).isSome = true := by
      rw [hlook, hs]
      cases pc with
      | waiting host port i =>
        obtain ⟨r, -, hget⟩ := h.counts.cell_eq (handles_pos hs)
        show ((s.heap.get i).map _).isSome = true
        rw [hget]
        rfl
      | building => rfl
      | shared => rfl
      | done => rfl
      | dropped => rfl
    rw [SharedResolver.step, if_pos ht]
    exact h
  | none =>
    have ht : t.lookups.lookup id = none := by
      rw [hlook, hs]
      rfl
    rw [SharedResolver.step, ht]
    refine h.setPc_same (handles_of_none hs) (lookupHost_handles ..) ?_
    rw [h.isSome_resolver]
    exact lookupHost_view ..

/-- Where a lookup stands, in both. -/
theorem Refines.lookup_eq (h : Refines s t) (hs : s.lookups.lookup id = some pc) :
    t.lookups.lookup id = pc.view s.heap := by
  rw [h.lookups id, hs]
  rfl

/-- A lookup that waits has the same resolver in both. -/
theorem Refines.waiting (h : Refines s t) {host : List Char} {port i : ℕ}
    (hs : s.lookups.lookup id = some (.waiting host port i)) :
    ∃ r, s.heap.get i = some r ∧ t.lookups.lookup id = some (.waiting host port r) := by
  obtain ⟨r, -, hget⟩ := h.counts.cell_eq (handles_pos hs)
  refine ⟨r, hget, ?_⟩
  rw [h.lookup_eq hs]
  show (s.heap.get i).map _ = _
  rw [hget]
  rfl

/-- A resolver is built, by whichever lookup is first. -/
theorem Refines.build (h : Refines s t) (id : ℕ) (built : Except String R) :
    Refines (s.build id built) (t.step env (.build id built)) := by
  unfold Resolving.build
  cases hs : s.lookups.lookup id with
  | none =>
    have ht : t.lookups.lookup id = none := by
      rw [h.lookups id, hs]
      rfl
    simp only [SharedResolver.step, ht]
    exact h
  | some pc =>
    cases pc with
    | building host port =>
      have ht : t.lookups.lookup id = some (.building host port) := h.lookup_eq hs
      cases built with
      | error e =>
        simp only [SharedResolver.step, ht]
        exact h.setPc_same (handles_eq hs) rfl rfl
      | ok r =>
        simp only [SharedResolver.step, ht]
        refine (h.install r).setPc_same ?_ rfl rfl
        have hsame : (s.install r).lookups = s.lookups := by
          unfold Resolving.install
          split <;> rfl
        exact handles_eq (hsame ▸ hs)
    | waiting host port i =>
      obtain ⟨r, -, ht⟩ := h.waiting hs
      simp only [SharedResolver.step, ht]
      exact h
    | _ =>
      have ht := h.lookup_eq hs
      simp only [LookupPc.view] at ht
      simp only [SharedResolver.step, ht]
      exact h

theorem Refines.snapshot (h : Refines s t) (id : ℕ) :
    Refines (s.snapshot id) (t.step env (.snapshot id)) := by
  unfold Resolving.snapshot
  cases hs : s.lookups.lookup id with
  | none =>
    have ht : t.lookups.lookup id = none := by
      rw [h.lookups id, hs]
      rfl
    simp only [SharedResolver.step, ht]
    exact h
  | some pc =>
    cases pc with
    | shared host port =>
      have ht : t.lookups.lookup id = some (.shared host port) := h.lookup_eq hs
      cases hres : s.resolver with
      | none =>
        have hcurrent : t.resolver = none := by
          rw [h.resolver, current, hres]
          rfl
        simp only [SharedResolver.step, ht, hcurrent]
        exact h
      | some i =>
        obtain ⟨r, -, hget⟩ := h.counts.cell_eq (static_pos hres _)
        have hcurrent : t.resolver = some r := by
          rw [h.resolver, current, hres]
          exact hget
        obtain ⟨hcounts, hkept⟩ := clone_counts h.counts (static_pos hres _)
        rw [handles_eq hs] at hcounts
        have hview : (LookupPc.waiting host port i).view (s.heap.clone i) =
            some (.waiting host port r) := by
          show ((s.heap.clone i).get i).map _ = _
          rw [hkept i, hget]
          rfl
        have hstep := h.setPc hcounts (fun j _ => hkept j) hview
        rw [hres] at hstep
        simp only [SharedResolver.step, ht, hcurrent]
        exact hstep
    | waiting host port i =>
      obtain ⟨r, -, ht⟩ := h.waiting hs
      simp only [SharedResolver.step, ht]
      exact h
    | _ =>
      have ht := h.lookup_eq hs
      simp only [LookupPc.view] at ht
      simp only [SharedResolver.step, ht]
      exact h

/-- A lookup that waits gives its handle back. -/
theorem Refines.release (h : Refines s t) {host : List Char} {port i : ℕ}
    (hs : s.lookups.lookup id = some (.waiting host port i)) {pc : LookupPc ℕ}
    {pc' : LookupPc R} (hnew : pc.handles = 0)
    (hview : ∀ heap : ArcHeap R, pc.view heap = some pc') :
    Refines ({ s with heap := s.heap.drop i }.setPc id pc) (t.setPc id pc') := by
  have hcounts := h.counts
  rw [handles_eq hs] at hcounts
  obtain ⟨hdrop, hkept⟩ := drop_counts hcounts
  apply h.setPc _ hkept (hview _)
  rw [hnew, add_zero]
  exact hdrop

theorem Refines.finish (h : Refines s t) (id : ℕ) (world : W) :
    Refines (s.finish env id world) (t.step env (.finish id world)) := by
  unfold Resolving.finish
  cases hs : s.lookups.lookup id with
  | none =>
    have ht : t.lookups.lookup id = none := by
      rw [h.lookups id, hs]
      rfl
    simp only [SharedResolver.step, ht]
    exact h
  | some pc =>
    cases pc with
    | waiting host port i =>
      obtain ⟨r, hget, ht⟩ := h.waiting hs
      simp only [SharedResolver.step, ht, hget]
      exact h.release hs rfl fun _ => rfl
    | _ =>
      have ht := h.lookup_eq hs
      simp only [LookupPc.view] at ht
      simp only [SharedResolver.step, ht]
      exact h

theorem Refines.cancel (h : Refines s t) (id : ℕ) :
    Refines (s.cancel id) (t.step env (.cancel id)) := by
  unfold Resolving.cancel
  cases hs : s.lookups.lookup id with
  | none =>
    have ht : t.lookups.lookup id = none := by
      rw [h.lookups id, hs]
      rfl
    simp only [SharedResolver.step, ht]
    exact h
  | some pc =>
    cases pc with
    | waiting host port i =>
      obtain ⟨r, -, ht⟩ := h.waiting hs
      simp only [SharedResolver.step, ht]
      exact h.release hs rfl fun _ => rfl
    | building host port =>
      have ht : t.lookups.lookup id = some (.building host port) := h.lookup_eq hs
      simp only [SharedResolver.step, ht]
      exact h.setPc_same (handles_eq hs) rfl rfl
    | shared host port =>
      have ht : t.lookups.lookup id = some (.shared host port) := h.lookup_eq hs
      simp only [SharedResolver.step, ht]
      exact h.setPc_same (handles_eq hs) rfl rfl
    | _ =>
      have ht := h.lookup_eq hs
      simp only [LookupPc.view] at ht
      simp only [SharedResolver.step, ht]
      exact h

/-- The hosts change for lookups to come, and for no lookup that is under way. -/
theorem Refines.reload (h : Refines s t) (hosts : Except String H) :
    Refines (s.reload env hosts) (t.step env (.reload hosts)) := by
  unfold Resolving.reload
  cases hosts with
  | error e => exact h
  | ok hosts =>
    cases hres : s.resolver with
    | none =>
      have hcurrent : t.resolver = none := by
        rw [h.resolver, current, hres]
        rfl
      refine ⟨h.counts, ?_, h.lookups⟩
      show t.resolver.map (env.setHosts hosts) = s.current
      rw [← h.resolver, hcurrent]
      rfl
    | some i =>
      have hcounts := h.counts
      have hhandles : s.handles = lookupHandles s.lookups + oneHandle i := by
        unfold handles staticHandles
        rw [hres, add_comm]
        rfl
      rw [hhandles] at hcounts
      obtain ⟨hmodified, hshows, hkept⟩ := makeMut_modify_counts hcounts (env.setHosts hosts)
      refine ⟨?_, ?_, fun id => ?_⟩
      · rw [add_comm] at hmodified
        exact hmodified
      · show t.resolver.map (env.setHosts hosts) = _
        rw [h.resolver, current, hres]
        exact hshows.symm
      · show t.lookups.lookup id = (s.lookups.lookup id).bind _
        rw [h.lookups id]
        refine (view_congr fun host port j hwait => hkept j ?_).symm
        have hle := Table.le_total (f := fun _ (pc : LookupPc ℕ) => pc.handles j) hwait
        have hone : (LookupPc.waiting host port j).handles j = 1 := if_pos rfl
        rw [hone] at hle
        exact hle

/-- Every step of the heap is one of the shared resolver. -/
theorem step_refines (h : Refines s t) (e : ResolverEvent R H W) :
    Refines (s.step env e) (t.step env e) := by
  cases e with
  | startHostsReload built =>
    cases built with
    | error e => exact h
    | ok r => exact h.install r
  | call id addr => exact h.call id addr
  | build id built => exact h.build id built
  | snapshot id => exact h.snapshot id
  | finish id world => exact h.finish id world
  | cancel id => exact h.cancel id
  | reload hosts => exact h.reload hosts

/-- The handles are used as if every lookup kept its resolver. -/
theorem run_refines (es : List (ResolverEvent R H W)) :
    Refines (run env es) (SharedResolver.run env es) := by
  show Refines (runFrom (step env) start es)
    (runFrom (SharedResolver.step env) SharedResolver.start es)
  exact runFrom_simulation (R := Refines) (fun _ _ e h => step_refines h e) es _ _ start_refines

/-- The resolver in the heap is the shared one after any events. -/
theorem current_eq (es : List (ResolverEvent R H W)) :
    (run env es).current = (SharedResolver.run env es).resolver :=
  (run_refines es).resolver.symm

/-- A resolver is in use. -/
theorem exists_of_handles_pos {i : ℕ} (h : 0 < s.handles i) :
    s.resolver = some i ∨
      ∃ id host port, s.lookups.lookup id = some (.waiting host port i) := by
  by_contra hnone
  have hstatic : s.staticHandles i = 0 := by
    unfold staticHandles
    cases hres : s.resolver with
    | none => rfl
    | some j =>
      have hij : ¬i = j := fun hij => hnone (Or.inl (hij ▸ hres))
      exact if_neg hij
  have hlookups : lookupHandles s.lookups i = 0 := by
    have hzero : lookupHandles s.lookups i = Table.total (fun _ _ => 0) s.lookups := by
      apply Table.total_congr
      intro id pc hpc
      cases pc with
      | waiting host port j =>
        have hij : ¬i = j := fun hij => hnone (Or.inr ⟨id, host, port, hij ▸ hpc⟩)
        exact if_neg hij
      | _ => rfl
    rw [hzero, Table.total, List.map_const', List.sum_replicate, smul_zero]
  have hsum : s.handles i = s.staticHandles i + lookupHandles s.lookups i := rfl
  omega

/-- There is a resolver in memory only while it is in use. -/
theorem run_live (es : List (ResolverEvent R H W)) (i : ℕ) :
    ((run env es).heap.get i).isSome = true ↔ (run env es).resolver = some i ∨
      ∃ id host port, (run env es).lookups.lookup id = some (.waiting host port i) := by
  rw [(run_refines es).counts.get_isSome_iff]
  constructor
  · exact exists_of_handles_pos
  · intro h
    rcases h with hres | ⟨id, host, port, hwait⟩
    · exact static_pos hres _
    · exact handles_pos hwait

end Steps

end Resolving

/-! ## What a lookup returns -/

/-- The hosts file that an event brings. -/
def ResolverEvent.reloaded : ResolverEvent R H W → Option H
  | .reload (.ok hosts) => some hosts
  | _ => none

/-- The lookup `id` was asked for that host and that port. -/
def Asked (es : List (ResolverEvent R H W)) (id : ℕ) (host : List Char) (port : ℕ) : Prop :=
  ∃ addr, .call id addr ∈ es ∧ Tcp.parseSocketAddr addr = none ∧
    splitAddr addr = .ok (host, port)

namespace SharedResolver

section Runs

variable {env : Hickory R H W} {t : SharedResolver R} {id : ℕ} {pc : LookupPc R}

/-- Whatever happens, the process keeps its resolver, with the hosts that were read last. -/
theorem runFrom_resolver {r : R} (h : t.resolver = some r) (fs : List (ResolverEvent R H W)) :
    (runFrom (step env) t fs).resolver = some ((fs.filterMap ResolverEvent.reloaded).foldl
      (fun r hosts => env.setHosts hosts r) r) := by
  induction fs generalizing t r with
  | nil => exact h
  | cons e fs ih =>
    rw [runFrom_cons]
    cases e with
    | startHostsReload built =>
      cases built with
      | error e => exact ih h
      | ok r' =>
        apply ih
        show some (t.resolver.getD r') = some r
        rw [h]
        rfl
    | call id addr =>
      apply ih
      rw [step]
      split <;> exact h
    | build id built =>
      apply ih
      unfold step
      dsimp only
      split
      · exact h
      · rename_i r' _
        show some (t.resolver.getD r') = some r
        rw [h]
        rfl
      · exact h
    | snapshot id =>
      apply ih
      rw [step]
      split <;> exact h
    | finish id world =>
      apply ih
      rw [step]
      split <;> exact h
    | cancel id =>
      apply ih
      rw [step]
      split <;> exact h
    | reload hosts =>
      cases hosts with
      | error e => exact ih h
      | ok hosts =>
        apply ih
        show t.resolver.map (env.setHosts hosts) = _
        rw [h]
        rfl

/-- How a lookup moves on. -/
inductive Moves (env : Hickory R H W) (t : SharedResolver R) (id : ℕ) :
    ResolverEvent R H W → LookupPc R → Prop where
  | call (addr : List Char) (initialized : Bool) :
      Moves env t id (.call id addr) (lookupHost initialized addr)
  | failed (e : String) :
      Moves env t id (.build id (.error e)) (.done (.error e))
  | built {host : List Char} {port : ℕ} (r : R)
      (hpc : t.lookups.lookup id = some (.building host port)) :
      Moves env t id (.build id (.ok r)) (.shared host port)
  | snapshot {host : List Char} {port : ℕ} {r : R}
      (hpc : t.lookups.lookup id = some (.shared host port)) (hresolver : t.resolver = some r) :
      Moves env t id (.snapshot id) (.waiting host port r)
  | finish {host : List Char} {port : ℕ} {r : R} (world : W)
      (hpc : t.lookups.lookup id = some (.waiting host port r)) :
      Moves env t id (.finish id world) (.done (answer env r host port world))
  | cancel : Moves env t id (.cancel id) .dropped

theorem setPc_lookup {id' : ℕ} {pc' : LookupPc R}
    (h : (t.setPc id' pc').lookups.lookup id = some pc) :
    t.lookups.lookup id = some pc ∨ id = id' ∧ pc = pc' := by
  have h : (t.lookups.insert id' pc').lookup id = some pc := h
  rw [Table.lookup_insert] at h
  split at h
  · rename_i hid
    cases h
    exact Or.inr ⟨hid, rfl⟩
  · exact Or.inl h

/-- A lookup is as it was, or its own event moved it on. -/
theorem step_moves {e : ResolverEvent R H W} (h : (t.step env e).lookups.lookup id = some pc) :
    t.lookups.lookup id = some pc ∨ Moves env t id e pc := by
  unfold step at h
  cases e with
  | startHostsReload built => cases built <;> exact Or.inl h
  | reload hosts => cases hosts <;> exact Or.inl h
  | call id' addr =>
    dsimp only at h
    split at h
    · exact Or.inl h
    · refine (setPc_lookup h).imp_right ?_
      rintro ⟨rfl, rfl⟩
      exact .call addr _
  | build id' built =>
    dsimp only at h
    split at h
    · rename_i e hpc
      refine (setPc_lookup h).imp_right ?_
      rintro ⟨rfl, rfl⟩
      exact .failed e
    · rename_i r hpc
      refine (setPc_lookup h).imp_right ?_
      rintro ⟨rfl, rfl⟩
      exact .built r hpc
    · exact Or.inl h
  | snapshot id' =>
    dsimp only at h
    split at h
    · rename_i hpc hresolver
      refine (setPc_lookup h).imp_right ?_
      rintro ⟨rfl, rfl⟩
      exact .snapshot hpc hresolver
    · exact Or.inl h
  | finish id' world =>
    dsimp only at h
    split at h
    · rename_i hpc
      refine (setPc_lookup h).imp_right ?_
      rintro ⟨rfl, rfl⟩
      exact .finish world hpc
    · exact Or.inl h
  | cancel id' =>
    dsimp only at h
    split at h
    · refine (setPc_lookup h).imp_right ?_
      rintro ⟨rfl, rfl⟩
      exact .cancel
    · refine (setPc_lookup h).imp_right ?_
      rintro ⟨rfl, rfl⟩
      exact .cancel
    · refine (setPc_lookup h).imp_right ?_
      rintro ⟨rfl, rfl⟩
      exact .cancel
    · exact Or.inl h

end Runs

end SharedResolver

/-- Why a lookup has returned `result`. -/
inductive Returned (env : Hickory R H W) (current : List (ResolverEvent R H W) → Option R)
    (es : List (ResolverEvent R H W)) (id : ℕ) (result : Except String (List SocketAddr)) :
    Prop where
  /-- The address is numeric. -/
  | numeric {addr : List Char} {a : SocketAddr} (hcall : .call id addr ∈ es)
      (haddr : Tcp.parseSocketAddr addr = some a) (hresult : result = .ok [a])
  | malformed {addr : List Char} {e : String} (hcall : .call id addr ∈ es)
      (haddr : Tcp.parseSocketAddr addr = none) (hsplit : splitAddr addr = .error e)
      (hresult : result = .error e)
  | unbuilt {e : String} (hbuild : .build id (.error e) ∈ es) (hresult : result = .error e)
  /-- It was answered by the resolver of the moment of its snapshot. -/
  | answered {before middle after : List (ResolverEvent R H W)} {host : List Char} {port : ℕ}
      {r : R} {world : W} (hes : es = before ++ .snapshot id :: middle ++ .finish id world :: after)
      (hasked : Asked before id host port) (hcurrent : current before = some r)
      (hresult : result = answer env r host port world)

section History

variable {env : Hickory R H W} {current : List (ResolverEvent R H W) → Option R}
  {es : List (ResolverEvent R H W)} {id : ℕ}

theorem Asked.concat {host : List Char} {port : ℕ} (h : Asked es id host port)
    (e : ResolverEvent R H W) : Asked (es ++ [e]) id host port := by
  obtain ⟨addr, hcall, haddr⟩ := h
  exact ⟨addr, List.mem_append_left _ hcall, haddr⟩

theorem Returned.concat {result : Except String (List SocketAddr)}
    (h : Returned env current es id result) (e : ResolverEvent R H W) :
    Returned env current (es ++ [e]) id result := by
  cases h with
  | numeric hcall haddr hresult => exact .numeric (List.mem_append_left _ hcall) haddr hresult
  | malformed hcall haddr hsplit hresult =>
    exact .malformed (List.mem_append_left _ hcall) haddr hsplit hresult
  | unbuilt hbuild hresult => exact .unbuilt (List.mem_append_left _ hbuild) hresult
  | @answered before middle after host port r world hes hasked hcurrent hresult =>
    refine @Returned.answered _ _ _ _ _ _ _ _ before middle (after ++ [e]) host port r world
      ?_ hasked hcurrent hresult
    rw [hes]
    simp

/-- Why a lookup stands where it does. -/
def LookupPc.Explained (env : Hickory R H W) (current : List (ResolverEvent R H W) → Option R)
    (es : List (ResolverEvent R H W)) (id : ℕ) : LookupPc R → Prop
  | .building host port => Asked es id host port
  | .shared host port => Asked es id host port
  | .waiting host port r => ∃ before after, es = before ++ .snapshot id :: after ∧
      Asked before id host port ∧ current before = some r
  | .done result => Returned env current es id result
  | .dropped => .cancel id ∈ es

/-- A later event does not change why a lookup is where it is. -/
theorem LookupPc.Explained.concat {pc : LookupPc R} (h : pc.Explained env current es id)
    (e : ResolverEvent R H W) : pc.Explained env current (es ++ [e]) id := by
  cases pc with
  | building host port => exact Asked.concat h e
  | shared host port => exact Asked.concat h e
  | waiting host port r =>
    obtain ⟨before, after, hes, hasked, hcurrent⟩ := h
    refine ⟨before, after ++ [e], ?_, hasked, hcurrent⟩
    rw [hes]
    simp
  | done result => exact Returned.concat h e
  | dropped => exact List.mem_append_left _ h

/-- The first thing a lookup does is to look at its address. -/
theorem lookupHost_explained (initialized : Bool) (addr : List Char) :
    (lookupHost initialized addr).Explained env current (es ++ [.call id addr]) id := by
  have hcall : .call id addr ∈ es ++ [.call id addr] :=
    List.mem_append_right _ (List.mem_singleton_self _)
  unfold lookupHost
  split
  · rename_i a haddr
    exact Returned.numeric hcall haddr rfl
  · rename_i haddr
    split
    · rename_i e hsplit
      exact Returned.malformed hcall haddr hsplit rfl
    · rename_i host port hsplit
      have hasked : Asked (es ++ [.call id addr]) id host port := ⟨addr, hcall, haddr, hsplit⟩
      split
      · exact hasked
      · exact hasked

/-- Where a lookup is follows from the events, after any run. -/
theorem SharedResolver.run_explained (es : List (ResolverEvent R H W)) :
    ∀ id pc, (run env es).lookups.lookup id = some pc →
      pc.Explained env (fun es => (run env es).resolver) es id := by
  apply @runFrom_history _ _ (step env) (fun es t => ∀ id pc, t.lookups.lookup id = some pc →
    pc.Explained env (fun es => (run env es).resolver) es id) start
  · intro id pc hpc
    cases hpc
  · intro es e ih id pc hpc
    rcases step_moves hpc with hpc | hmoves
    · exact (ih id pc hpc).concat e
    cases hmoves with
    | call addr initialized => exact lookupHost_explained initialized addr
    | failed e =>
      exact Returned.unbuilt (List.mem_append_right _ (List.mem_singleton_self _)) rfl
    | built r hbuilding => exact Asked.concat (ih id _ hbuilding) _
    | snapshot hshared hresolver => exact ⟨es, [], rfl, ih id _ hshared, hresolver⟩
    | finish world hwaiting =>
      obtain ⟨before, after, hes, hasked, hcurrent⟩ := ih id _ hwaiting
      refine @Returned.answered _ _ _ _ _ _ _ _ before after [] _ _ _ world ?_ hasked hcurrent rfl
      rw [← hes]
    | cancel => exact List.mem_append_right _ (List.mem_singleton_self _)

/-- **Lookups are atomic.** Whatever is interleaved, and however many lookups race to make the
resolver: a lookup that returns was answered by the resolver there was at its snapshot, which a
reload in between has not touched. The resolver stays the one that was installed first, with the
hosts that were read last; a reload that fails changes nothing. A resolver is in memory while
`RESOLVER` or a lookup holds it, and no longer. -/
theorem lookups_atomic (env : Hickory R H W) (es : List (ResolverEvent R H W)) :
    (∀ id result, (Resolving.run env es).lookups.lookup id = some (.done result) →
      Returned env (fun es => (Resolving.run env es).current) es id result) ∧
    (∀ r fs, (Resolving.run env es).current = some r →
      (Resolving.run env (es ++ fs)).current =
        some ((fs.filterMap ResolverEvent.reloaded).foldl
          (fun r hosts => env.setHosts hosts r) r)) ∧
    ∀ i, ((Resolving.run env es).heap.get i).isSome = true ↔
      (Resolving.run env es).resolver = some i ∨
        ∃ id host port, (Resolving.run env es).lookups.lookup id = some (.waiting host port i) := by
  refine ⟨?_, ?_, Resolving.run_live es⟩
  · intro id result hdone
    have hpc := (Resolving.run_refines es).lookup_eq hdone
    have hexplained := SharedResolver.run_explained es id _ hpc
    have hcurrent : (fun es => (Resolving.run env es).current) =
        fun es => (SharedResolver.run env es).resolver := funext Resolving.current_eq
    rw [hcurrent]
    exact hexplained
  · intro r fs hcurrent
    rw [Resolving.current_eq] at hcurrent
    rw [Resolving.current_eq, SharedResolver.run, runFrom_append]
    exact SharedResolver.runFrom_resolver hcurrent fs

end History

end Model

end SniRouter
