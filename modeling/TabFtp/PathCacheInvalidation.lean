import TabFtp.PathCache
import TabFtp.ServerPathParents

/-!
# Invalidating a path

A path that is removed or renamed is taken out of the path cache with all
that leads to it, into it or out of it.  No other entry of the server is
lost, and no other server is touched.
-/

namespace TabFtp

open OrderedSet LexicographicKeys

/-! ## The maps of the cache are in order -/

theorem SourcePath.less_iff (path op : SourcePath) :
    path.less op = true ↔
      toLex (path.subdir, path.source.orderKey) <
        toLex (op.subdir, op.source.orderKey) := by
  rw [← lexThen_iff fun _ => ServerPath.less_iff path.source op.source]
  unfold less lexThen
  split_ifs <;> rfl

theorem SourcePath.less_strictWeak : StrictWeak SourcePath.less :=
  strictWeak_of_key SourcePath.less_iff

namespace PathCache

/-- The map of servers is in order, and so is the map of each server. -/
def InOrder (cache : PathCache) : Prop :=
  Ordered Prod.fst Server.less cache ∧
    ∀ pair ∈ cache, Ordered Prod.fst SourcePath.less pair.2

variable {cache : PathCache} {calls : List PathCacheCall}

theorem InOrder.update (horder : cache.InOrder) (server : Server)
    {change : ServerCache → ServerCache}
    (hchange : ∀ serverCache, Ordered Prod.fst SourcePath.less serverCache →
      Ordered Prod.fst SourcePath.less (change serverCache)) :
    InOrder (OrderedMap.update Server.less server change cache) := by
  constructor
  · exact OrderedMap.Ordered.update horder.1 server change
  · intro pair hmem
    rcases OrderedMap.mem_update hmem with hold | ⟨value, hold, _, hvalue⟩
    · exact horder.2 pair hold
    · rw [hvalue]
      exact hchange value (horder.2 _ hold)

theorem InOrder.found (horder : cache.InOrder) (server : Server) :
    InOrder
      (if (OrderedMap.find Server.less server cache).isNone then
        (OrderedSet.emplace Prod.fst Server.less (server, []) cache).1
      else cache) := by
  split_ifs
  · constructor
    · exact Ordered.emplace Server.less_strictWeak horder.1 (server, [])
    · intro pair hmem
      rcases OrderedMap.mem_emplace hmem with hold | hnew
      · exact horder.2 pair hold
      · rw [hnew]
        exact List.Pairwise.nil
  · exact horder

end PathCache

namespace ServerCache

variable {serverCache : ServerCache}

theorem eraseLeadingTo_ordered
    (hordered : Ordered Prod.fst SourcePath.less serverCache)
    (path : ServerPath) (subdir : WString) (target : ServerPath) :
    Ordered Prod.fst SourcePath.less
      (serverCache.eraseLeadingTo path subdir target) := by
  unfold eraseLeadingTo
  split_ifs
  · cases path.addSegment subdir with
    | none => exact hordered
    | some below => exact hordered.filter _
  · exact hordered
  · exact hordered.filter _

theorem invalidatePath_ordered
    (hordered : Ordered Prod.fst SourcePath.less serverCache)
    (path : ServerPath) (subdir : WString) :
    Ordered Prod.fst SourcePath.less
      (serverCache.invalidatePath path subdir) := by
  unfold invalidatePath
  dsimp only
  cases OrderedMap.find SourcePath.less ⟨path, subdir⟩ serverCache with
  | none => exact eraseLeadingTo_ordered hordered path subdir _
  | some pair =>
      exact eraseLeadingTo_ordered (OrderedMap.Ordered.erase hordered _) path
        subdir pair.2

end ServerCache

namespace PathCache

variable {cache : PathCache} {calls : List PathCacheCall}

theorem InOrder.call (horder : cache.InOrder) (call : PathCacheCall) :
    InOrder (cache.call call) := by
  cases call with
  | store server target source subdir =>
      apply (horder.found server).update server
      intro serverCache hordered
      exact OrderedMap.Ordered.assign SourcePath.less_strictWeak hordered _ _
  | lookup server source subdir => exact horder
  | invalidatePath server path subdir =>
      exact horder.update server fun _ hordered =>
        ServerCache.invalidatePath_ordered hordered path subdir
  | invalidateServer server =>
      constructor
      · exact OrderedMap.Ordered.erase horder.1 server
      · intro pair hmem
        exact horder.2 pair (OrderedMap.mem_erase hmem)
  | clear =>
      constructor
      · exact List.Pairwise.nil
      · intro pair hmem
        cases hmem

theorem inOrder_after (calls : List PathCacheCall) :
    InOrder (after calls) := by
  induction calls using List.reverseRecOn with
  | nil =>
      constructor
      · exact List.Pairwise.nil
      · intro pair hmem
        cases hmem
  | append_singleton calls call ih =>
      rw [after_append]
      exact ih.call call

end PathCache

/-! ## What an invalidation erases -/

namespace ServerPath

def AtOrBelow (path target : ServerPath) : Prop :=
  path = target ∨ target.isParentOf exactName path false = true

theorem atOrBelow_iff {path target : ServerPath} (hsturdy : target.Sturdy)
    (htarget : target.empty = false) :
    path.AtOrBelow target ↔ AncestorOrSelf target path := by
  unfold AtOrBelow isParentOf
  rcases path with ⟨data, type⟩
  cases data with
  | none =>
      constructor
      · intro hbelow
        rcases hbelow with rfl | hbelow
        · cases htarget
        · simp [isSubdirOf] at hbelow
      · intro habove
        exact absurd habove (not_ancestorOrSelf_of_empty rfl)
  | some data =>
      rw [isSubdirOf_iff_isAbove hsturdy, ancestorOrSelf_iff]
      exact or_congr_left eq_comm

end ServerPath

namespace ServerCache

variable {serverCache : ServerCache} {path target : ServerPath}
  {subdir : WString} {entry : SourcePath × ServerPath}

/-- What the subdirectory leads to: what the cache has for it, or the path
extended by it. -/
def leadsTo (serverCache : ServerCache) (path : ServerPath)
    (subdir : WString) : Option ServerPath :=
  let stored := serverCache.lookup path subdir
  if !stored.empty then some stored
  else if subdir.isEmpty then none
  else path.addSegment subdir

theorem leadsTo_nonempty (htarget : serverCache.leadsTo path subdir =
    some target) : target.empty = false := by
  unfold leadsTo at htarget
  dsimp only at htarget
  split_ifs at htarget with hstored hsubdir
  · rw [← Option.some.inj htarget]
    simpa using hstored
  · rcases Option.map_eq_some_iff.mp htarget with ⟨data, _, rfl⟩
    rfl

theorem leadsTo_sturdy (hpath : path.Sturdy)
    (htargets : ∀ entry ∈ serverCache, entry.2.Sturdy)
    (htarget : serverCache.leadsTo path subdir = some target) :
    target.Sturdy := by
  unfold leadsTo at htarget
  dsimp only at htarget
  split_ifs at htarget with hstored hsubdir
  · rcases lookup_mem (by simpa using hstored) with ⟨sourcePath, hmem⟩
    rw [← Option.some.inj htarget]
    exact htargets _ hmem
  · exact hpath.addSegment htarget

def Touches (entry : SourcePath × ServerPath) (target : ServerPath) : Prop :=
  entry.1.source.AtOrBelow target ∨ entry.2.AtOrBelow target

theorem mem_eraseTarget_iff :
    entry ∈ serverCache.eraseTarget target ↔
      entry ∈ serverCache ∧ ¬Touches entry target := by
  unfold eraseTarget Touches ServerPath.AtOrBelow
  rw [List.mem_filter, Bool.not_eq_true', ← Bool.not_eq_true]
  simp only [Bool.or_eq_true, ServerPath.same_iff]
  tauto

theorem mem_eraseLeadingTo_iff :
    entry ∈ serverCache.eraseLeadingTo path subdir target ↔
      entry ∈ serverCache ∧ ∀ place,
        (if !target.empty then some target
          else if subdir.isEmpty then none
          else path.addSegment subdir) = some place →
        ¬Touches entry place := by
  unfold eraseLeadingTo
  by_cases hempty : target.empty = true
  · by_cases hsubdir : subdir.isEmpty = true
    · simp [hempty, hsubdir]
    · cases hadd : path.addSegment subdir with
      | none => simp [hempty, hsubdir]
      | some below => simp [hempty, hsubdir, mem_eraseTarget_iff]
  · simp [hempty, mem_eraseTarget_iff]

/-- What is left after an invalidation. -/
theorem mem_invalidatePath_iff
    (hordered : Ordered Prod.fst SourcePath.less serverCache) :
    entry ∈ serverCache.invalidatePath path subdir ↔
      entry ∈ serverCache ∧
        ¬Equivalent SourcePath.less entry.1 ⟨path, subdir⟩ ∧
        ∀ place, serverCache.leadsTo path subdir = some place →
          ¬Touches entry place := by
  unfold invalidatePath leadsTo lookup
  dsimp only
  cases hfind : OrderedMap.find SourcePath.less ⟨path, subdir⟩ serverCache with
  | none =>
      have hnone := (OrderedMap.find_eq_none_iff SourcePath.less_strictWeak
        hordered).mp hfind
      dsimp only
      rw [mem_eraseLeadingTo_iff]
      constructor
      · intro hkept
        exact ⟨hkept.1, hnone entry hkept.1, hkept.2⟩
      · intro hkept
        exact ⟨hkept.1, hkept.2.2⟩
  | some pair =>
      dsimp only
      rw [mem_eraseLeadingTo_iff, OrderedMap.mem_erase_iff, and_assoc]

end ServerCache

namespace PathCache

/-- The entries of a server. -/
def entries (cache : PathCache) (server : Server) : ServerCache :=
  match OrderedMap.find Server.less server cache with
  | none => []
  | some pair => pair.2

variable {cache : PathCache}

theorem InOrder.entries (horder : cache.InOrder) (server : Server) :
    Ordered Prod.fst SourcePath.less (cache.entries server) := by
  unfold PathCache.entries
  cases hfind : OrderedMap.find Server.less server cache with
  | none => exact List.Pairwise.nil
  | some pair => exact horder.2 pair (OrderedMap.find_mem hfind).1

theorem invalidatePath_nil (path : ServerPath) (subdir : WString) :
    ServerCache.invalidatePath [] path subdir = [] := by
  rw [List.eq_nil_iff_forall_not_mem]
  intro entry hmem
  exact absurd (ServerCache.mem_of_mem_invalidatePath hmem) List.not_mem_nil

theorem entries_invalidatePath (horder : cache.InOrder) (server : Server)
    (path : ServerPath) (subdir : WString) :
    (cache.invalidatePath server path subdir).entries server =
      (cache.entries server).invalidatePath path subdir := by
  unfold PathCache.invalidatePath entries
  rw [OrderedMap.find_update_self Server.less_strictWeak horder.1
    (Server.less_strictWeak.refl server)]
  cases OrderedMap.find Server.less server cache with
  | none => exact (invalidatePath_nil path subdir).symm
  | some pair => rfl

theorem entries_invalidatePath_other (horder : cache.InOrder)
    {server other : Server} (hdiffer : ¬other.ComparedAlike server)
    (path : ServerPath) (subdir : WString) :
    (cache.invalidatePath server path subdir).entries other =
      cache.entries other := by
  have hkey : ¬Equivalent Server.less other server := by
    rw [Server.equivalent_iff]
    exact hdiffer
  unfold PathCache.invalidatePath entries
  rw [OrderedMap.find_update_other Server.less_strictWeak horder.1 hkey]

theorem find_invalidatePath
    {serverCache : ServerCache}
    (hordered : Ordered Prod.fst SourcePath.less serverCache)
    (path : ServerPath) (subdir : WString) :
    OrderedMap.find SourcePath.less ⟨path, subdir⟩
      (serverCache.invalidatePath path subdir) = none := by
  rw [OrderedMap.find_eq_none_iff SourcePath.less_strictWeak
    (ServerCache.invalidatePath_ordered hordered path subdir)]
  intro entry hmem
  exact ((ServerCache.mem_invalidatePath_iff hordered).mp hmem).2.1

end PathCache

end TabFtp
