import TabFtp.OrderedMap
import TabFtp.ServerOrder
import TabFtp.ServerPathOrder

/-!
# The path cache

`CPathCache` remembers, for each server, to which path a path and a
subdirectory lead.  The servers are the keys of a map that is ordered by
`CServer::operator<`.
-/

namespace TabFtp

open OrderedSet

structure SourcePath where
  source : ServerPath
  subdir : WString

/-- `CSourcePath::operator<`, which ties the subdirectory and the source. -/
def SourcePath.less (path op : SourcePath) : Bool :=
  if path.subdir < op.subdir then true
  else if op.subdir < path.subdir then false
  else path.source.less op.source

abbrev ServerCache := List (SourcePath × ServerPath)

abbrev PathCache := List (Server × ServerCache)

namespace ServerCache

/-- An empty path is one without data. -/
def lookup (serverCache : ServerCache) (source : ServerPath)
    (subdir : WString) : ServerPath :=
  match OrderedMap.find SourcePath.less ⟨source, subdir⟩ serverCache with
  | none => ⟨none, .default⟩
  | some pair => pair.2

def eraseTarget (serverCache : ServerCache) (target : ServerPath) :
    ServerCache :=
  serverCache.filter fun pair =>
    !(pair.2.same target ||
      target.isParentOf ServerPath.exactName pair.2 false ||
      pair.1.source.same target ||
      target.isParentOf ServerPath.exactName pair.1.source false)

/-- The part of `invalidatePath` after the entry itself has been erased; a
path that no entry leads to is the subdirectory. -/
def eraseLeadingTo (serverCache : ServerCache) (path : ServerPath)
    (subdir : WString) (target : ServerPath) : ServerCache :=
  if target.empty && !subdir.isEmpty then
    match path.addSegment subdir with
    | none => serverCache
    | some below => serverCache.eraseTarget below
  else if target.empty then serverCache
  else serverCache.eraseTarget target

def invalidatePath (serverCache : ServerCache) (path : ServerPath)
    (subdir : WString) : ServerCache :=
  let sourcePath : SourcePath := ⟨path, subdir⟩
  match OrderedMap.find SourcePath.less sourcePath serverCache with
  | none => serverCache.eraseLeadingTo path subdir ⟨none, .default⟩
  | some pair =>
      eraseLeadingTo (OrderedMap.erase SourcePath.less sourcePath serverCache)
        path subdir pair.2

end ServerCache

namespace PathCache

variable (cache : PathCache) (server : Server)

def store (target source : ServerPath) (subdir : WString) : PathCache :=
  let found :=
    if (OrderedMap.find Server.less server cache).isNone then
      (OrderedSet.emplace Prod.fst Server.less (server, []) cache).1
    else cache
  OrderedMap.update Server.less server
    (OrderedMap.assign SourcePath.less ⟨source, subdir⟩ target) found

def lookup (source : ServerPath) (subdir : WString) : ServerPath :=
  match OrderedMap.find Server.less server cache with
  | none => ⟨none, .default⟩
  | some pair => ServerCache.lookup pair.2 source subdir

def invalidateServer : PathCache :=
  OrderedMap.erase Server.less server cache

def invalidatePath (path : ServerPath) (subdir : WString) : PathCache :=
  OrderedMap.update Server.less server
    (fun serverCache => serverCache.invalidatePath path subdir) cache

end PathCache

inductive PathCacheCall
  | store (server : Server) (target source : ServerPath) (subdir : WString)
  | lookup (server : Server) (source : ServerPath) (subdir : WString)
  | invalidatePath (server : Server) (path : ServerPath) (subdir : WString)
  | invalidateServer (server : Server)
  | clear

def PathCacheCall.servers : PathCacheCall → List Server
  | .store server _ _ _ => [server]
  | .lookup server _ _ => [server]
  | .invalidatePath server _ _ => [server]
  | .invalidateServer server => [server]
  | .clear => []

def PathCache.call (cache : PathCache) : PathCacheCall → PathCache
  | .store server target source subdir =>
      cache.store server target source subdir
  | .lookup _ _ _ => cache
  | .invalidatePath server path subdir =>
      cache.invalidatePath server path subdir
  | .invalidateServer server => cache.invalidateServer server
  | .clear => []

/-- The cache after calls on a new one. -/
def PathCache.after (calls : List PathCacheCall) : PathCache :=
  calls.foldl PathCache.call []

/-! ## Which targets a cache holds -/

def Stores (calls : List PathCacheCall) (server : Server)
    (target : ServerPath) : Prop :=
  ∃ source subdir, .store server target source subdir ∈ calls

/-- Every path that a lookup returns after the calls was stored for a server
that is the same under `operator==`. -/
def LookupIsolated (calls : List PathCacheCall) (server : Server)
    (source : ServerPath) (subdir : WString) : Prop :=
  let target := (PathCache.after calls).lookup server source subdir
  target.empty = false →
    ∃ stored, Stores calls stored target ∧ stored.same server = true

/-- Two servers that only `operator==` tells apart. -/
def Server.DifferOnlyInCommands (server op : Server) : Prop :=
  server.ComparedAlike op ∧
    server.postLoginCommands ≠ op.postLoginCommands

def PathCache.StoredBy (calls : List PathCacheCall) (cache : PathCache) :
    Prop :=
  ∀ pair ∈ cache, ∀ entry ∈ pair.2,
    ∃ stored, Stores calls stored entry.2 ∧
      Equivalent Server.less stored pair.1

theorem Stores.append {calls : List PathCacheCall} {server : Server}
    {target : ServerPath} (hstores : Stores calls server target)
    (more : List PathCacheCall) :
    Stores (calls ++ more) server target := by
  obtain ⟨source, subdir, hmem⟩ := hstores
  exact ⟨source, subdir, List.mem_append_left _ hmem⟩

theorem ServerCache.mem_of_mem_eraseTarget
    {serverCache : ServerCache} {target : ServerPath}
    {entry : SourcePath × ServerPath}
    (hmem : entry ∈ serverCache.eraseTarget target) :
    entry ∈ serverCache :=
  List.mem_of_mem_filter hmem

theorem ServerCache.mem_of_mem_eraseLeadingTo
    {serverCache : ServerCache} {path target : ServerPath} {subdir : WString}
    {entry : SourcePath × ServerPath}
    (hmem : entry ∈ serverCache.eraseLeadingTo path subdir target) :
    entry ∈ serverCache := by
  unfold eraseLeadingTo at hmem
  split_ifs at hmem with hbelow hempty
  · cases hsegment : path.addSegment subdir with
    | none =>
        rw [hsegment] at hmem
        exact hmem
    | some below =>
        rw [hsegment] at hmem
        exact mem_of_mem_eraseTarget hmem
  · exact hmem
  · exact mem_of_mem_eraseTarget hmem

theorem ServerCache.mem_of_mem_invalidatePath
    {serverCache : ServerCache} {path : ServerPath} {subdir : WString}
    {entry : SourcePath × ServerPath}
    (hmem : entry ∈ serverCache.invalidatePath path subdir) :
    entry ∈ serverCache := by
  unfold invalidatePath at hmem
  dsimp only at hmem
  cases hfind : OrderedMap.find SourcePath.less ⟨path, subdir⟩ serverCache with
  | none =>
      rw [hfind] at hmem
      exact mem_of_mem_eraseLeadingTo hmem
  | some pair =>
      rw [hfind] at hmem
      exact OrderedMap.mem_erase (mem_of_mem_eraseLeadingTo hmem)

theorem ServerCache.lookup_mem
    {serverCache : ServerCache} {source : ServerPath} {subdir : WString}
    (hfound : (serverCache.lookup source subdir).empty = false) :
    ∃ sourcePath,
      (sourcePath, serverCache.lookup source subdir) ∈ serverCache := by
  unfold ServerCache.lookup at hfound ⊢
  cases hfind :
      OrderedMap.find SourcePath.less ⟨source, subdir⟩ serverCache with
  | none =>
      rw [hfind] at hfound
      cases hfound
  | some pair => exact ⟨pair.1, (OrderedMap.find_mem hfind).1⟩

theorem SourcePath.less_self (path : SourcePath) :
    path.less path = false := by
  simp [SourcePath.less, ServerPath.less_strictWeak.irrefl]

namespace PathCache

variable {calls : List PathCacheCall} {cache : PathCache}

theorem StoredBy.append
    (hcache : cache.StoredBy calls) (more : List PathCacheCall) :
    cache.StoredBy (calls ++ more) := by
  intro pair hpair entry hentry
  obtain ⟨stored, hstores, hsame⟩ := hcache pair hpair entry hentry
  exact ⟨stored, hstores.append more, hsame⟩

theorem StoredBy.update
    (hcache : cache.StoredBy calls) (server : Server)
    {change : ServerCache → ServerCache}
    (hchange : ∀ serverCache entry,
      entry ∈ change serverCache → entry ∈ serverCache) :
    StoredBy calls (OrderedMap.update Server.less server change cache) := by
  intro pair hpair entry hentry
  rcases OrderedMap.mem_update hpair with hold | ⟨old, hold, _, hvalue⟩
  · exact hcache pair hold entry hentry
  · rw [hvalue] at hentry
    exact hcache _ hold entry (hchange old entry hentry)

/-- What `Store` adds has been stored by the call. -/
theorem StoredBy.store
    (hcache : cache.StoredBy calls) (server : Server)
    (target source : ServerPath) (subdir : WString) :
    StoredBy (calls ++ [.store server target source subdir])
      (cache.store server target source subdir) := by
  have hstored :
      Stores (calls ++ [.store server target source subdir])
        server target :=
    ⟨source, subdir, by simp⟩
  have hfound {missing : Bool} {pair : Server × ServerCache}
      (hmem : pair ∈
        (if missing then
          (OrderedSet.emplace Prod.fst Server.less (server, []) cache).1
        else cache)) : pair ∈ cache ∨ pair.2 = [] := by
    cases missing with
    | false => exact Or.inl hmem
    | true =>
        rcases OrderedMap.mem_emplace hmem with hold | hnew
        · exact Or.inl hold
        · exact Or.inr (by rw [hnew])
  intro pair hpair entry hentry
  rcases OrderedMap.mem_update hpair with hkept | ⟨old, hold, hsame, hvalue⟩
  · rcases hfound hkept with hmem | hempty
    · exact hcache.append _ pair hmem entry hentry
    · rw [hempty] at hentry
      cases hentry
  · rw [hvalue] at hentry
    rcases OrderedMap.mem_assign hentry with hbefore | hnew
    · rcases hfound hold with hmem | hempty
      · exact hcache.append _ _ hmem entry hbefore
      · have hnone : old = [] := hempty
        rw [hnone] at hbefore
        cases hbefore
    · rw [hnew]
      exact ⟨server, hstored, hsame.symm⟩

theorem StoredBy.call
    (hcache : cache.StoredBy calls) (call : PathCacheCall) :
    StoredBy (calls ++ [call]) (cache.call call) := by
  cases call with
  | store server target source subdir =>
      exact hcache.store server target source subdir
  | lookup server source subdir => exact hcache.append _
  | invalidatePath server path subdir =>
      exact (hcache.append _).update server fun _ _ =>
        ServerCache.mem_of_mem_invalidatePath
  | invalidateServer server =>
      intro pair hpair
      exact hcache.append _ pair (OrderedMap.mem_erase hpair)
  | clear => exact fun pair hpair => absurd hpair (List.not_mem_nil)

theorem after_append (calls : List PathCacheCall) (call : PathCacheCall) :
    after (calls ++ [call]) = (after calls).call call := by
  simp [after]

theorem storedBy_after (calls : List PathCacheCall) :
    StoredBy calls (after calls) := by
  induction calls using List.reverseRecOn with
  | nil => exact fun pair hpair => absurd hpair (List.not_mem_nil)
  | append_singleton calls call ih =>
      rw [after_append]
      exact ih.call call

/-- What is found has been stored for a server that compares alike. -/
theorem lookup_stored
    (calls : List PathCacheCall) (server : Server) (source : ServerPath)
    (subdir : WString)
    (hfound :
      ((after calls).lookup server source subdir).empty = false) :
    ∃ stored, Stores calls stored
        ((after calls).lookup server source subdir) ∧
      stored.ComparedAlike server := by
  unfold PathCache.lookup at hfound ⊢
  cases hfind : OrderedMap.find Server.less server (after calls) with
  | none =>
      rw [hfind] at hfound
      cases hfound
  | some pair =>
      rw [hfind] at hfound
      obtain ⟨hmem, hkey⟩ := OrderedMap.find_mem hfind
      obtain ⟨sourcePath, hentry⟩ := ServerCache.lookup_mem hfound
      obtain ⟨stored, hstores, hsame⟩ :=
        storedBy_after calls pair hmem _ hentry
      have halike :=
        (Server.equivalent_iff stored server).mp
          (Server.less_strictWeak.equivalent_trans hsame hkey)
      exact ⟨stored, hstores, halike⟩

theorem lookup_store {first second : Server}
    (halike : first.ComparedAlike second) (target source : ServerPath)
    (subdir : WString) :
    (after [.store first target source subdir]).lookup second source subdir =
      target := by
  have hsame := (Server.equivalent_iff first second).mpr halike
  have hserver := Server.less_strictWeak.irrefl first
  have hpath := SourcePath.less_self ⟨source, subdir⟩
  have hafter :
      after [.store first target source subdir] =
        [(first, [(⟨source, subdir⟩, target)])] := by
    simp [after, PathCache.call, PathCache.store, OrderedMap.find,
      OrderedMap.update, OrderedMap.assign, lowerBound, OrderedSet.emplace, hserver,
      hpath]
  have hentry :
      OrderedMap.find SourcePath.less ⟨source, subdir⟩
          [((⟨source, subdir⟩ : SourcePath), target)] =
        some (⟨source, subdir⟩, target) :=
    OrderedMap.find_singleton ⟨hpath, hpath⟩
  rw [hafter, PathCache.lookup, OrderedMap.find_singleton hsame]
  simp only [ServerCache.lookup, hentry]

/-- `operator<` is an order that a map can use.  On a set of servers the
cache keeps the sites apart, whatever is called, if and only if no two of
them differ in their post-login commands alone; and only then is a server
neither before nor after exactly the servers that it equals. -/
theorem isolated_iff (servers : Set Server) :
    StrictWeak Server.less ∧
      ((∀ calls : List PathCacheCall,
          (∀ call ∈ calls, ∀ server ∈ call.servers, server ∈ servers) →
          ∀ server ∈ servers, ∀ source subdir,
            LookupIsolated calls server source subdir) ↔
        ∀ first ∈ servers, ∀ second ∈ servers,
          ¬ first.DifferOnlyInCommands second) ∧
      ((∀ first ∈ servers, ∀ second ∈ servers,
          Equivalent Server.less first second ↔
            first.same second = true) ↔
        ∀ first ∈ servers, ∀ second ∈ servers,
          ¬ first.DifferOnlyInCommands second) := by
  refine ⟨Server.less_strictWeak, ⟨?_, ?_⟩, ⟨?_, ?_⟩⟩
  · rintro hisolated first hfirst second hsecond ⟨halike, hcommands⟩
    let root : ServerPath := ⟨some ⟨[], none⟩, .unix⟩
    let calls : List PathCacheCall := [.store first root root []]
    have hservers :
        ∀ call ∈ calls, ∀ server ∈ call.servers, server ∈ servers := by
      intro call hcall server hserver
      obtain rfl := List.mem_singleton.mp hcall
      obtain rfl := List.mem_singleton.mp hserver
      exact hfirst
    have hlookup := lookup_store halike root root []
    have hfound := hisolated calls hservers second hsecond root []
    obtain ⟨stored, ⟨source, subdir, hmem⟩, hsame⟩ :=
      hfound (by rw [hlookup]; rfl)
    have hstored : stored = first := by
      have hcall := List.mem_singleton.mp hmem
      injection hcall
    rw [hstored, Server.same_iff_comparedAlike] at hsame
    exact hcommands hsame.2
  · intro hservers calls hcalls server hserver source subdir
    dsimp only [LookupIsolated]
    intro hfound
    obtain ⟨stored, hstores, halike⟩ :=
      lookup_stored calls server source subdir hfound
    have hmem : stored ∈ servers := by
      obtain ⟨storedSource, storedSubdir, hcall⟩ := hstores
      exact hcalls _ hcall stored (by simp [PathCacheCall.servers])
    have hcommands :
        stored.postLoginCommands = server.postLoginCommands := by
      by_contra hdiffer
      exact hservers stored hmem server hserver ⟨halike, hdiffer⟩
    exact ⟨stored, hstores,
      (Server.same_iff_comparedAlike stored server).mpr
        ⟨halike, hcommands⟩⟩
  · rintro hequal first hfirst second hsecond ⟨halike, hcommands⟩
    have hsame := (hequal first hfirst second hsecond).mp
      ((Server.equivalent_iff first second).mpr halike)
    exact hcommands
      ((Server.same_iff_comparedAlike first second).mp hsame).2
  · intro hservers first hfirst second hsecond
    rw [Server.equivalent_iff, Server.same_iff_comparedAlike]
    constructor
    · intro halike
      have hcommands :
          first.postLoginCommands = second.postLoginCommands := by
        by_contra hdiffer
        exact hservers first hfirst second hsecond ⟨halike, hdiffer⟩
      exact ⟨halike, hcommands⟩
    · exact And.left

/-- Two accounts that are equal but for a command after the login. -/
theorem not_isolated :
    ∃ calls server source subdir,
      ¬ LookupIsolated calls server source subdir := by
  let first : Server :=
    ⟨.ftp, .default, "ftp.example.org".toList, "anna".toList, 21, 0,
      .default, false, .auto, [], [], []⟩
  let second : Server :=
    { first with postLoginCommands := ["SITE CHROOT /b".toList] }
  let root : ServerPath := ⟨some ⟨[], none⟩, .unix⟩
  have halike : first.ComparedAlike second := by
    constructor <;> first | rfl | exact fun _ => rfl
  have hlookup := lookup_store halike root root []
  refine ⟨[.store first root root []], second, root, [], ?_⟩
  intro hisolated
  dsimp only [LookupIsolated] at hisolated
  rw [hlookup] at hisolated
  obtain ⟨stored, ⟨source, subdir, hmem⟩, hsame⟩ := hisolated rfl
  have hstored : stored = first := by
    have hcall := List.mem_singleton.mp hmem
    injection hcall
  rw [hstored] at hsame
  cases hsame

end PathCache

end TabFtp
