import TabFtp.PathCacheInvalidation

/-!
# The path cache as a table

Seen from outside, the path cache is a table with a row for each server.  A
row holds, for a path and a subdirectory, the target that was stored last,
until the server is invalidated or a path that the entry touches is.  The
ordered maps of the cache agree with this table in every run.
-/

namespace TabFtp

open OrderedSet

/-- What is stored for a source.  The key of an entry is the source that it
was made for. -/
abbrev PathRow := SourcePath → Option (SourcePath × ServerPath)

namespace PathRow

def target (row : PathRow) (source : ServerPath) (subdir : WString) :
    ServerPath :=
  ((row ⟨source, subdir⟩).map Prod.snd).getD ⟨none, .default⟩

def leadsTo (row : PathRow) (path : ServerPath) (subdir : WString) :
    Option ServerPath :=
  if (row.target path subdir).empty = false then some (row.target path subdir)
  else if subdir = [] then none
  else path.addSegment subdir

/-- An entry is lost if it is the one of the path itself, or if its source or
its target is at or below the place that the path leads to. -/
def Lost (row : PathRow) (path : ServerPath) (subdir : WString)
    (entry : SourcePath × ServerPath) : Prop :=
  Equivalent SourcePath.less entry.1 ⟨path, subdir⟩ ∨
    ∃ place, row.leadsTo path subdir = some place ∧
      ServerCache.Touches entry place

open Classical in
noncomputable def store (row : PathRow) (target source : ServerPath)
    (subdir : WString) : PathRow := fun path =>
  if Equivalent SourcePath.less path ⟨source, subdir⟩ then
    some (((row path).map Prod.fst).getD ⟨source, subdir⟩, target)
  else row path

open Classical in
noncomputable def invalidatePath (row : PathRow) (path : ServerPath)
    (subdir : WString) : PathRow := fun source =>
  (row source).filter fun entry => ¬row.Lost path subdir entry

end PathRow

abbrev PathTable := Server → PathRow

namespace PathTable

open Classical in
noncomputable def change (table : PathTable) (server : Server)
    (change : PathRow → PathRow) : PathTable := fun op =>
  if op.ComparedAlike server then change (table op) else table op

noncomputable def call (table : PathTable) : PathCacheCall → PathTable
  | .store server target source subdir =>
      table.change server fun row => row.store target source subdir
  | .lookup _ _ _ => table
  | .invalidatePath server path subdir =>
      table.change server fun row => row.invalidatePath path subdir
  | .invalidateServer server => table.change server fun _ _ => none
  | .clear => fun _ _ => none

noncomputable def after (calls : List PathCacheCall) : PathTable :=
  calls.foldl PathTable.call fun _ _ => none

end PathTable

/-! ## The entries of one server -/

namespace ServerCache

def row (serverCache : ServerCache) : PathRow := fun path =>
  OrderedMap.find SourcePath.less path serverCache

variable {serverCache : ServerCache}

theorem row_target (source : ServerPath) (subdir : WString) :
    serverCache.row.target source subdir =
      serverCache.lookup source subdir := by
  unfold PathRow.target row lookup
  cases OrderedMap.find SourcePath.less ⟨source, subdir⟩ serverCache <;> rfl

theorem row_leadsTo (path : ServerPath) (subdir : WString) :
    serverCache.row.leadsTo path subdir =
      serverCache.leadsTo path subdir := by
  unfold PathRow.leadsTo leadsTo
  rw [row_target]
  simp only [List.isEmpty_iff, Bool.not_eq_true']

theorem row_assign
    (hordered : Ordered Prod.fst SourcePath.less serverCache)
    (target source : ServerPath) (subdir : WString) :
    row (OrderedMap.assign SourcePath.less ⟨source, subdir⟩ target
      serverCache) = serverCache.row.store target source subdir := by
  funext path
  unfold row PathRow.store
  split_ifs with hsame
  · exact OrderedMap.find_assign_self SourcePath.less_strictWeak hordered hsame
  · exact OrderedMap.find_assign_other SourcePath.less_strictWeak hordered
      hsame

theorem row_invalidatePath
    (hordered : Ordered Prod.fst SourcePath.less serverCache)
    (path : ServerPath) (subdir : WString) :
    row (serverCache.invalidatePath path subdir) =
      serverCache.row.invalidatePath path subdir := by
  have hafter := invalidatePath_ordered hordered path subdir
  funext source
  apply Option.ext
  intro entry
  have hkept : ¬serverCache.row.Lost path subdir entry ↔
      ¬Equivalent SourcePath.less entry.1 ⟨path, subdir⟩ ∧
        ∀ place, serverCache.leadsTo path subdir = some place →
          ¬Touches entry place := by
    unfold PathRow.Lost
    rw [not_or, row_leadsTo, not_exists]
    simp only [not_and]
  unfold PathRow.invalidatePath
  classical
  rw [Option.filter_eq_some_iff, decide_eq_true_iff, hkept]
  unfold row
  rw [OrderedMap.find_eq_some_iff SourcePath.less_strictWeak hafter,
    mem_invalidatePath_iff hordered,
    OrderedMap.find_eq_some_iff SourcePath.less_strictWeak hordered]
  tauto

end ServerCache

/-! ## The whole cache -/

namespace PathCache

variable {cache : PathCache} {server op : Server}

theorem find_alike (horder : cache.InOrder)
    (halike : op.ComparedAlike server) (change : ServerCache → ServerCache) :
    OrderedMap.find Server.less op
        (OrderedMap.update Server.less server change cache) =
      (OrderedMap.find Server.less op cache).map fun pair =>
        (pair.1, change pair.2) :=
  OrderedMap.find_update_self Server.less_strictWeak horder.1
    ((Server.equivalent_iff op server).mpr halike)

theorem find_apart (horder : cache.InOrder)
    (hapart : ¬op.ComparedAlike server)
    (change : ServerCache → ServerCache) :
    OrderedMap.find Server.less op
        (OrderedMap.update Server.less server change cache) =
      OrderedMap.find Server.less op cache := by
  apply OrderedMap.find_update_other Server.less_strictWeak horder.1
  rw [Server.equivalent_iff]
  exact hapart

/-- A row without entries is made for a server that has none. -/
theorem find_found (horder : cache.InOrder)
    (halike : op.ComparedAlike server) :
    ∃ key, OrderedMap.find Server.less op
        (if (OrderedMap.find Server.less server cache).isNone then
          (OrderedSet.emplace Prod.fst Server.less (server, []) cache).1
        else cache) = some (key, cache.entries op) := by
  have hsame := (Server.equivalent_iff op server).mpr halike
  have hfind := OrderedMap.find_congr Server.less_strictWeak horder.1 hsame
  unfold entries
  rw [hfind]
  cases hserver : OrderedMap.find Server.less server cache with
  | none =>
      exact ⟨server, OrderedMap.find_emplace_self Server.less_strictWeak
        horder.1 (hfind.trans hserver) hsame⟩
  | some pair => exact ⟨pair.1, hfind.trans hserver⟩

theorem find_found_apart (horder : cache.InOrder)
    (hapart : ¬op.ComparedAlike server) :
    OrderedMap.find Server.less op
        (if (OrderedMap.find Server.less server cache).isNone then
          (OrderedSet.emplace Prod.fst Server.less (server, []) cache).1
        else cache) = OrderedMap.find Server.less op cache := by
  rw [← Server.equivalent_iff] at hapart
  split_ifs
  · exact OrderedMap.find_emplace_other Server.less_strictWeak horder.1 hapart
  · rfl

theorem entries_store (horder : cache.InOrder)
    (halike : op.ComparedAlike server) (target source : ServerPath)
    (subdir : WString) :
    (cache.store server target source subdir).entries op =
      OrderedMap.assign SourcePath.less ⟨source, subdir⟩ target
        (cache.entries op) := by
  rcases find_found horder halike with ⟨key, hkey⟩
  conv_lhs => unfold PathCache.store entries
  rw [find_alike (horder.found server) halike, hkey]
  rfl

theorem entries_store_apart (horder : cache.InOrder)
    (hapart : ¬op.ComparedAlike server) (target source : ServerPath)
    (subdir : WString) :
    (cache.store server target source subdir).entries op =
      cache.entries op := by
  unfold PathCache.store entries
  rw [find_apart (horder.found server) hapart, find_found_apart horder hapart]

theorem entries_invalidatePath_alike (horder : cache.InOrder)
    (halike : op.ComparedAlike server) (path : ServerPath)
    (subdir : WString) :
    (cache.invalidatePath server path subdir).entries op =
      (cache.entries op).invalidatePath path subdir := by
  unfold PathCache.invalidatePath entries
  rw [find_alike horder halike]
  cases OrderedMap.find Server.less op cache with
  | none => exact (invalidatePath_nil path subdir).symm
  | some pair => rfl

/-! ## The cache and its table -/

def Shows (cache : PathCache) (table : PathTable) : Prop :=
  ∀ server, (cache.entries server).row = table server

variable {table : PathTable}

theorem Shows.call (horder : cache.InOrder) (hshows : cache.Shows table)
    (call : PathCacheCall) : Shows (cache.call call) (table.call call) := by
  intro op
  cases call with
  | store server target source subdir =>
      unfold PathCache.call PathTable.call PathTable.change
      dsimp only
      split_ifs with halike
      · rw [entries_store horder halike,
          ServerCache.row_assign (horder.entries op), hshows op]
      · rw [entries_store_apart horder halike, hshows op]
  | lookup server source subdir => exact hshows op
  | invalidatePath server path subdir =>
      unfold PathCache.call PathTable.call PathTable.change
      dsimp only
      split_ifs with halike
      · rw [entries_invalidatePath_alike horder halike,
          ServerCache.row_invalidatePath (horder.entries op), hshows op]
      · rw [entries_invalidatePath_other horder halike, hshows op]
  | invalidateServer server =>
      unfold PathCache.call PathTable.call PathTable.change invalidateServer
        entries
      dsimp only
      split_ifs with halike
      · rw [← Server.equivalent_iff] at halike
        rw [OrderedMap.find_erase_self Server.less_strictWeak horder.1 halike]
        rfl
      · rw [← Server.equivalent_iff] at halike
        rw [OrderedMap.find_erase_other Server.less_strictWeak horder.1 halike]
        exact hshows op
  | clear => rfl

/-- The cache shows the table after every sequence of calls. -/
theorem shows_after (calls : List PathCacheCall) :
    Shows (after calls) (PathTable.after calls) := by
  induction calls using List.reverseRecOn with
  | nil => exact fun _ => rfl
  | append_singleton calls call ih =>
      have htable : PathTable.after (calls ++ [call]) =
          (PathTable.after calls).call call := by
        simp [PathTable.after]
      rw [after_append, htable]
      exact ih.call (inOrder_after calls) call

/-- In every run the cache has an entry for a source if and only if the table
has it, and a lookup returns the target that the table has. -/
theorem cache_agrees_with_table (calls : List PathCacheCall) (server : Server)
    (source : ServerPath) (subdir : WString) :
    OrderedMap.find SourcePath.less ⟨source, subdir⟩
        ((after calls).entries server) =
      PathTable.after calls server ⟨source, subdir⟩ ∧
      (after calls).lookup server source subdir =
        (PathTable.after calls server).target source subdir := by
  have hshows := shows_after calls server
  have hlookup : (after calls).lookup server source subdir =
      ((after calls).entries server).lookup source subdir := by
    unfold PathCache.lookup entries
    cases OrderedMap.find Server.less server (after calls) <;> rfl
  constructor
  · exact congrFun hshows ⟨source, subdir⟩
  · rw [hlookup, ← ServerCache.row_target, hshows]

end PathCache

end TabFtp
