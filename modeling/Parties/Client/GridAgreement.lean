import Parties.Client.WatchGrid
import Parties.Video.RouterIsolation

/-!
# The grid agrees with what is watched

Whatever the user, the platform, the server and the network do, in any order: the streams that
are watched are sharers of the channel, exactly these are received and decoded, the grid and the
flags show exactly these, the stream audio is that of a watched screen, and the page of the
streams is neither shown nor kept in the history without one.

The actions of the user are those the pages offer (`Offered`). The handlers do not look whether
what was clicked is still there: the double click on the cell of a stream that has just ended would
show the page of the streams with nothing watched. On a platform with one decoder for all streams
nothing is said of that decoder.
-/

namespace Parties.Video.VideoReceiveRouter

variable {φ : Type} {stream : StreamId}

theorem isOpen_openStream (r : VideoReceiveRouter φ) (s : StreamId) (nowUs : Int) :
    (r.openStream s nowUs).isOpen stream = true ↔ stream = s ∨ r.isOpen stream = true := by
  by_cases hs : stream = s
  · simp [isOpen, openStream, hs]
  · simp [isOpen, openStream, hs]

theorem isOpen_close (r : VideoReceiveRouter φ) (s : StreamId) :
    (r.close s).isOpen stream = true ↔ stream ≠ s ∧ r.isOpen stream = true := by
  by_cases hs : stream = s
  · simp [isOpen, close, hs]
  · simp [isOpen, close, hs]

@[simp] theorem isOpen_closeAll (r : VideoReceiveRouter φ) :
    r.closeAll.isOpen stream = false := rfl

/-- A stream has a buffer as long as its watch lasts. -/
theorem isOpen_step [FrameBytes φ] {r : VideoReceiveRouter φ} (hplayout : r.cfg.playout = true)
    {op : RouterOp φ} (hop : Client.isWatch op = false) :
    (r.step op).1.isOpen stream = r.isOpen stream := by
  have hopen : ∀ nowUs, op ≠ .openStream stream nowUs := by
    rintro nowUs rfl
    simp [Client.isWatch] at hop
  have hcloses : ¬ Closes stream op := by
    intro hclosed
    cases op <;> simp [Closes, Client.isWatch] at hop hclosed
  have hbuffer : bufferOf stream (r.step op).1 = _ :=
    ((step_serves hplayout hopen).resolve_right fun h => hcloses h.1).buffer
  have hsome : ∀ r : VideoReceiveRouter φ, r.isOpen stream = (bufferOf stream r).isSome := by
    simp [isOpen, bufferOf]
  rw [hsome, hsome, hbuffer]
  cases bufferOf stream r <;> rfl

end Parties.Video.VideoReceiveRouter

namespace Parties.Client

open Parties.Video

/-! ### The pages -/

namespace DocumentRouter

/-- The page of the streams is shown, or back leads to it. -/
def Mentions (r : DocumentRouter) : Prop := r.current = .streams ∨ .streams ∈ r.history

instance (r : DocumentRouter) : Decidable r.Mentions := inferInstanceAs (Decidable (_ ∨ _))

@[simp] theorem mentions_go (r : DocumentRouter) (route : DocumentRoute) :
    (r.go route).Mentions ↔ route = .streams := by
  simp [Mentions, go]

theorem mentions_push {r : DocumentRouter} {route : DocumentRoute} (h : (r.push route).Mentions) :
    route = .streams ∨ r.Mentions := by
  unfold push at h
  split at h
  · exact .inr h
  · simp only [Mentions, List.mem_cons] at h ⊢
    rcases h with h | h | h
    · exact .inl h
    · exact .inr (.inl h.symm)
    · exact .inr (.inr h)

theorem mentions_back {r : DocumentRouter} (h : r.back.Mentions) : r.Mentions := by
  unfold back at h
  split at h
  next hhistory =>
    simp [Mentions, hhistory] at h
  next route history hhistory =>
    simp only [Mentions, hhistory, List.mem_cons] at h ⊢
    rcases h with h | h
    · exact .inr (.inl h.symm)
    · exact .inr (.inr h)

theorem not_mentions_leaveStreams (r : DocumentRouter) : ¬ r.leaveStreams.Mentions := by
  unfold leaveStreams
  dsimp only
  split
  · simp
  next hcurrent =>
    rintro (h | h)
    · exact hcurrent (by simpa [is] using h)
    · obtain ⟨route, -, hroute⟩ := List.mem_map.mp h
      split at hroute <;> simp_all

end DocumentRouter

/-! ### The invariant -/

namespace LobbyClient

variable {φ : Type} {c : LobbyClient φ}

/-- The entry of a sharer, but for its flag. -/
def unflagged (s : ActiveSharer) : ActiveSharer := { s with watching := false }

/-- The streams that are watched are received and decoded, and one of them has the focus. -/
structure Watching (c : LobbyClient φ) : Prop where
  nodup : c.watched.Nodup
  listed : ∀ s ∈ c.watched, s ∈ c.sharers
  sharers : c.sharers.Nodup
  valid : ∀ s ∈ c.sharers, videoStreamValid s = true
  entries : c.activeSharers.map unflagged = c.sharers.map .of
  someone : c.someoneSharing = true ↔ c.sharers ≠ []
  playout : c.videoRx.cfg.playout = true
  received : ∀ s, c.videoRx.isOpen s = true ↔ s ∈ c.watched
  decoded : ∀ s, s ∈ c.videoStreams ↔ c.multiStream = true ∧ s ∈ c.watched
  single : c.multiStream = false → c.watched.length ≤ 1
  primary : c.viewingSharer ∈ c.watched ∨ c.viewingSharer = 0 ∧ c.watched = []
  shownPrimary : c.viewingSharerId = c.viewingSharer
  audio : c.audioSharer ∈ c.watched ∧ videoStreamSource c.audioSharer = some .screen ∨
    c.audioSharer = 0 ∧ ∀ s ∈ c.watched, videoStreamSource s ≠ some .screen
  fullscreen : c.streamFullscreen = true → c.watched ≠ []

/-- The pages show what is watched. -/
structure Shown (c : LobbyClient φ) : Prop where
  flags : c.activeSharers = c.sharers.map fun s =>
    { ActiveSharer.of s with watching := decide (s ∈ c.watched) }
  cells : c.grid = (c.sharers.filter (· ∈ c.watched)).map fun s => (ActiveSharer.of s).cell c.userId
  count : c.watchingCount = c.watched.length
  pages : c.router.Mentions → c.watched ≠ []

structure Consistent (c : LobbyClient φ) : Prop where
  watching : c.Watching
  shown : c.Shown

/-- The watched streams, in the order of the list. -/
theorem Watching.perm (h : c.Watching) : (c.sharers.filter (· ∈ c.watched)).Perm c.watched := by
  refine (List.perm_ext_iff_of_nodup (h.sharers.filter _) h.nodup).mpr fun s => ?_
  simp only [List.mem_filter, decide_eq_true_eq]
  exact ⟨And.right, fun hs => ⟨h.listed s hs, hs⟩⟩

/-- Changes of the part below that leave its watches alone. -/
structure SameWatch (k k' : AppCore) : Prop where
  userId : k'.userId = k.userId
  multiStream : k'.multiStream = k.multiStream
  sharers : k'.sharers = k.sharers
  watched : k'.watched = k.watched
  viewingSharer : k'.viewingSharer = k.viewingSharer

theorem Watching.onCore (h : c.Watching) {f : AppCore → AppCore}
    (hsame : SameWatch c.toAppCore (f c.toAppCore)) : (c.onCore f).Watching := by
  obtain ⟨-, hmulti, hsharers, hwatched, hviewing⟩ := hsame
  constructor <;> simp only [LobbyClient.onCore, hmulti, hsharers, hwatched, hviewing]
  · exact h.nodup
  · exact h.listed
  · exact h.sharers
  · exact h.valid
  · exact h.entries
  · exact h.someone
  · exact h.playout
  · exact h.received
  · exact h.decoded
  · exact h.single
  · exact h.primary
  · exact h.shownPrimary
  · exact h.audio
  · exact h.fullscreen

theorem Consistent.onCore (h : c.Consistent) {f : AppCore → AppCore}
    (hsame : SameWatch c.toAppCore (f c.toAppCore)) : (c.onCore f).Consistent := by
  refine ⟨h.watching.onCore hsame, ?_⟩
  obtain ⟨huser, -, hsharers, hwatched, -⟩ := hsame
  constructor <;> simp only [LobbyClient.onCore, huser, hsharers, hwatched]
  · exact h.shown.flags
  · exact h.shown.cells
  · exact h.shown.count
  · exact h.shown.pages

/-- Turn to another page. -/
theorem Consistent.turn (h : c.Consistent) {router : DocumentRouter}
    (hpages : router.Mentions → c.watched ≠ []) : ({ c with router } : LobbyClient φ).Consistent where
  watching := { h.watching with }
  shown := { h.shown with pages := hpages }

theorem Consistent.showVoiceChannel (h : c.Consistent) (channel : ChannelId) :
    (c.showVoiceChannel channel).Consistent := by
  refine h.turn fun hmentions => ?_
  have hcount : 0 < c.watchingCount := by
    by_contra hnone
    simp [hnone] at hmentions
  rw [h.shown.count] at hcount
  exact List.ne_nil_of_length_pos hcount

/-! ### The model -/

/-- Rebuilding puts the pages right. -/
theorem Watching.rebuild (h : c.Watching) : c.rebuildWatchedModel.Consistent := by
  have hflags : c.rebuildWatchedModel.activeSharers = c.sharers.map fun s =>
      { ActiveSharer.of s with watching := decide (s ∈ c.watched) } := by
    have hset : ∀ s : ActiveSharer, { s with watching := decide (s.id ∈ c.watched) } =
        { unflagged s with watching := decide ((unflagged s).id ∈ c.watched) } := fun _ => rfl
    have hentries := congrArg (List.map fun s : ActiveSharer =>
      { s with watching := decide (s.id ∈ c.watched) }) h.entries
    rw [List.map_map, List.map_map] at hentries
    exact hentries
  have hcells : c.rebuildWatchedModel.grid =
      (c.sharers.filter (· ∈ c.watched)).map fun s => (ActiveSharer.of s).cell c.userId := by
    change ((c.rebuildWatchedModel.activeSharers.filter (·.watching)).map (·.cell c.userId)) = _
    rw [hflags, List.filter_map, List.map_map]
    rfl
  have hcount : c.rebuildWatchedModel.watchingCount = c.watched.length := by
    change c.rebuildWatchedModel.grid.length = _
    rw [hcells, List.length_map]
    exact h.perm.length_eq
  refine ⟨{ h with entries := ?_ }, ⟨hflags, hcells, hcount, fun hmentions => ?_⟩⟩
  · rw [hflags, List.map_map]
    rfl
  · rintro hnone
    have hempty : c.rebuildWatchedModel.grid = [] := by
      have hnone' : c.watched = [] := hnone
      simp [hcells, hnone']
    have hleft : c.rebuildWatchedModel.router = c.router.leaveStreams := by
      change (if c.rebuildWatchedModel.grid.isEmpty then _ else _) = _
      rw [hempty]
      rfl
    rw [hleft] at hmentions
    exact c.router.not_mentions_leaveStreams hmentions

theorem Watching.addChannelSharer (h : c.Watching) {stream : StreamId}
    (hvalid : videoStreamValid stream = true) : (c.addChannelSharer stream).Watching := by
  unfold LobbyClient.addChannelSharer
  split
  next hmem =>
    exact { h with someone := by simp [List.ne_nil_of_mem hmem] }
  next hnew =>
    exact { h with
      listed := fun s hs => List.mem_append_left _ (h.listed s hs)
      sharers := List.nodup_append.mpr ⟨h.sharers, by simp, by grind⟩
      valid := by
        intro s hs
        rcases List.mem_append.mp hs with hs | hs
        · exact h.valid s hs
        · rwa [List.mem_singleton.mp hs]
      entries := by simp [h.entries, unflagged, ActiveSharer.of]
      someone := by simp }

/-- A sharer that nobody watches any more goes away. -/
theorem Watching.removeChannelSharer (h : c.Watching) {stream : StreamId}
    (hunwatched : stream ∉ c.watched) : (c.removeChannelSharer stream).Watching := by
  have hentries : (c.activeSharers.filter (·.id ≠ stream)).map unflagged =
      (c.sharers.filter (· ≠ stream)).map .of := by
    have hfiltered := congrArg (List.filter fun s : ActiveSharer => decide (s.id ≠ stream)) h.entries
    rw [List.filter_map, List.filter_map] at hfiltered
    exact hfiltered
  have hlength := congrArg List.length hentries
  rw [List.length_map, List.length_map] at hlength
  exact { h with
    listed := fun s hs => by
      simp only [LobbyClient.removeChannelSharer, List.mem_filter, decide_eq_true_eq]
      exact ⟨h.listed s hs, fun heq => hunwatched (heq ▸ hs)⟩
    sharers := h.sharers.filter _
    valid := fun s hs => h.valid s (List.mem_filter.mp hs).1
    entries := hentries
    someone := by
      simp only [LobbyClient.removeChannelSharer, Bool.not_eq_true', List.isEmpty_eq_false_iff,
        ne_eq, ← List.length_eq_zero_iff, hlength] }

/-! ### Watches that end -/

/-- `remove_watch` up to the rebuild. -/
def unwatch (c : LobbyClient φ) (stream : StreamId) : LobbyClient φ :=
  let c := { c with watched := c.watched.filter (· ≠ stream) }
  let c := c.onCore (·.sendMessage (.screenShareView stream (some 0)))
  let c := c.stopVideoStreams [stream]
  let c := { c with videoRx := c.videoRx.close stream }.refocusPrimary
  if c.audioSharer = stream then c.refocusStreamAudio else c

theorem removeWatch_of_mem {stream : StreamId} (hs : stream ∈ c.watched) :
    c.removeWatch stream = (c.unwatch stream).rebuildWatchedModel := by
  unfold LobbyClient.removeWatch
  rw [if_neg (not_not_intro hs)]
  rfl

theorem removeWatch_of_not_mem {stream : StreamId} (hs : stream ∉ c.watched) :
    c.removeWatch stream = c := if_pos hs

/-- The screen that has the audio now, if the one that had it is gone. -/
theorem Watching.refocus (h : c.Watching) {stream : StreamId} :
    let watched := c.watched.filter (· ≠ stream)
    let audio := if c.audioSharer = stream then
      (watched.find? fun s => videoStreamSource s = some VideoSource.screen).getD 0 else c.audioSharer
    audio ∈ watched ∧ videoStreamSource audio = some .screen ∨
      audio = 0 ∧ ∀ s ∈ watched, videoStreamSource s ≠ some .screen := by
  intro watched audio
  by_cases hgone : c.audioSharer = stream
  · simp only [audio, if_pos hgone]
    rcases hfound : watched.find? fun s => videoStreamSource s = some VideoSource.screen with _ | s
    · refine .inr ⟨rfl, fun s hs => ?_⟩
      simpa using List.find?_eq_none.mp hfound s hs
    · exact .inl ⟨List.mem_of_find?_eq_some hfound, by simpa using List.find?_some hfound⟩
  · simp only [audio, if_neg hgone]
    rcases h.audio with ⟨hmem, hscreen⟩ | ⟨hzero, hnone⟩
    · exact .inl ⟨by simp [watched, hmem, hgone], hscreen⟩
    · exact .inr ⟨hzero, fun s hs => hnone s (List.mem_filter.mp hs).1⟩

theorem refocusPrimary_eq (c : LobbyClient φ) : c.refocusPrimary = { c with
    viewingSharer := c.watched.headD 0
    viewingSharerId := c.watched.headD 0
    streamFullscreen := c.streamFullscreen && !c.watched.isEmpty } := by
  unfold refocusPrimary
  split
  next hwatched => simp [hwatched]
  next hwatched => simp [hwatched]

theorem unwatch_eq (c : LobbyClient φ) (stream : StreamId) :
    c.unwatch stream =
      let watched := c.watched.filter (· ≠ stream)
      ({ c with
        watched := watched
        videoRx := c.videoRx.close stream
        videoStreams := c.videoStreams.filter (· ∉ [stream])
        viewingSharer := watched.headD 0
        viewingSharerId := watched.headD 0
        streamFullscreen := c.streamFullscreen && !watched.isEmpty
        audioSharer := if c.audioSharer = stream then
          (watched.find? fun s => videoStreamSource s = some VideoSource.screen).getD 0
          else c.audioSharer } : LobbyClient φ).onCore
        (·.sendMessage (.screenShareView stream (some 0))) := by
  unfold LobbyClient.unwatch
  dsimp only
  rw [refocusPrimary_eq]
  by_cases haudio : c.audioSharer = stream
  · rw [if_pos haudio]
    exact if_pos haudio
  · rw [if_neg haudio]
    exact if_neg haudio

theorem Watching.unwatch (h : c.Watching) (stream : StreamId) : (c.unwatch stream).Watching := by
  have hmem : ∀ s, s ∈ c.watched.filter (· ≠ stream) ↔ s ∈ c.watched ∧ s ≠ stream := by simp
  have hreceived : ∀ s, (c.videoRx.close stream).isOpen s = true ↔
      s ∈ c.watched.filter (· ≠ stream) := by
    intro s
    rw [VideoReceiveRouter.isOpen_close, h.received, hmem]
    exact And.comm
  have hdecoded : ∀ s, s ∈ c.videoStreams.filter (· ∉ [stream]) ↔
      c.multiStream = true ∧ s ∈ c.watched.filter (· ≠ stream) := by
    intro s
    simp [h.decoded, and_assoc]
  rw [unwatch_eq]
  refine Watching.onCore ?_ ⟨rfl, rfl, rfl, rfl, rfl⟩
  exact { h with
    nodup := h.nodup.filter _
    listed := fun s hs => h.listed s ((hmem s).mp hs).1
    received := hreceived
    decoded := hdecoded
    single := fun hone => (List.length_filter_le _ _).trans (h.single hone)
    primary := by
      rcases c.watched.filter (· ≠ stream) with _ | ⟨primary, rest⟩
      · exact .inr ⟨rfl, rfl⟩
      · exact .inl (List.mem_cons_self ..)
    shownPrimary := rfl
    audio := h.refocus
    fullscreen := by simp }

theorem not_mem_unwatch (c : LobbyClient φ) (stream : StreamId) :
    stream ∉ (c.unwatch stream).watched := by
  rw [unwatch_eq]
  simp [LobbyClient.onCore, AppCore.sendMessage]

theorem Consistent.removeWatch (h : c.Consistent) (stream : StreamId) :
    (c.removeWatch stream).Consistent := by
  by_cases hs : stream ∈ c.watched
  · rw [removeWatch_of_mem hs]
    exact (h.watching.unwatch stream).rebuild
  · rwa [removeWatch_of_not_mem hs]

/-- The list and the watches do not get in each other's way. -/
theorem unwatch_removeChannelSharer (c : LobbyClient φ) (stream : StreamId) :
    (c.removeChannelSharer stream).unwatch stream = (c.unwatch stream).removeChannelSharer stream := by
  rw [unwatch_eq, unwatch_eq]
  rfl

theorem Watching.dropSharer (h : c.Watching) (stream : StreamId) :
    (c.dropSharer stream).Watching := by
  unfold LobbyClient.dropSharer
  by_cases hs : stream ∈ c.watched
  · rw [removeWatch_of_mem (c := c.removeChannelSharer stream) hs, unwatch_removeChannelSharer]
    exact (((h.unwatch stream).removeChannelSharer (c.not_mem_unwatch stream)).rebuild).watching
  · rw [removeWatch_of_not_mem (c := c.removeChannelSharer stream) hs]
    exact h.removeChannelSharer hs

theorem Watching.mem_watched (h : c.Watching) : ∀ s ∈ c.videoStreams, s ∈ c.watched :=
  fun s hs => ((h.decoded s).mp hs).2

/-- Nothing is watched, and nothing decoded. -/
theorem Watching.watchNone (h : c.Watching) {streams : List StreamId} (hnone : ∀ s, s ∉ streams) :
    ({ c with
      watched := []
      videoRx := c.videoRx.closeAll
      videoStreams := streams
      viewingSharer := 0
      audioSharer := 0
      viewingSharerId := 0
      streamFullscreen := false } : LobbyClient φ).Watching :=
  { h with
    nodup := List.nodup_nil
    listed := by simp
    received := by simp
    decoded := by simpa using hnone
    single := by simp
    primary := .inr ⟨rfl, rfl⟩
    shownPrimary := rfl
    audio := .inr ⟨rfl, by simp⟩
    fullscreen := by simp }

theorem Watching.stopWatching (h : c.Watching) : c.stopWatching.Consistent := by
  have hnone : ∀ s, s ∉ c.videoStreams.filter (· ∉ c.watched) := by simpa using h.mem_watched
  exact ((h.watchNone hnone).onCore (f := (·.sendMessage (.screenShareView 0 none)))
    ⟨rfl, rfl, rfl, rfl, rfl⟩).rebuild

theorem Watching.clearAllSharers (h : c.Watching) : c.clearAllSharers.Consistent where
  watching :=
    { h with
      nodup := List.nodup_nil
      listed := by simp [LobbyClient.clearAllSharers]
      sharers := List.nodup_nil
      valid := by simp [LobbyClient.clearAllSharers]
      entries := rfl
      someone := by simp [LobbyClient.clearAllSharers]
      received := by simp [LobbyClient.clearAllSharers]
      decoded := by simpa [LobbyClient.clearAllSharers, stopVideoStreams] using h.mem_watched
      single := by simp [LobbyClient.clearAllSharers]
      primary := .inr ⟨rfl, rfl⟩
      shownPrimary := rfl
      audio := .inr ⟨rfl, by simp [LobbyClient.clearAllSharers]⟩
      fullscreen := by simp [LobbyClient.clearAllSharers] }
  shown :=
    { flags := rfl
      cells := rfl
      count := rfl
      pages := fun hmentions => absurd hmentions c.router.not_mentions_leaveStreams }

/-! ### Watches that begin -/

theorem audio_screenOr0 (stream : StreamId) :
    screenOr0 stream ∈ [stream] ∧ videoStreamSource (screenOr0 stream) = some .screen ∨
      screenOr0 stream = 0 ∧ ∀ s ∈ [stream], videoStreamSource s ≠ some .screen := by
  unfold screenOr0
  split
  next hscreen =>
    exact .inl ⟨by simp, hscreen⟩
  next hother =>
    exact .inr ⟨rfl, by simpa using hother⟩

/-- A platform with one decoder has none of its own to start. -/
theorem Watching.no_streams (h : c.Watching) (hone : c.multiStream = false) : c.videoStreams = [] := by
  refine List.eq_nil_iff_forall_not_mem.mpr fun s hs => ?_
  simpa [hone] using (h.decoded s).mp hs

/-- The one stream of a platform with one decoder. -/
theorem Watching.watchOne (h : c.Watching) (hone : c.multiStream = false) {stream : StreamId}
    (hs : stream ∈ c.sharers) (nowUs : Int) : ({ c with
      watched := [stream]
      viewingSharer := stream
      audioSharer := screenOr0 stream
      videoRx := c.videoRx.closeAll.openStream stream nowUs
      viewingSharerId := stream } : LobbyClient φ).Watching :=
  { h with
    nodup := List.nodup_singleton stream
    listed := by simpa using hs
    received := by simp [VideoReceiveRouter.isOpen_openStream]
    decoded := by simp [hone, h.no_streams hone]
    single := by simp
    primary := .inl (List.mem_singleton.mpr rfl)
    shownPrimary := rfl
    audio := audio_screenOr0 stream
    fullscreen := by simp }

theorem Consistent.watchSingle (h : c.Consistent) (hone : c.multiStream = false) {stream : StreamId}
    (hs : stream ∈ c.sharers) (nowUs : Int) : (c.watchSingle nowUs stream).Consistent := by
  unfold LobbyClient.watchSingle
  split
  · exact h.showVoiceChannel _
  · have hwatched := ((h.watching.watchOne hone hs nowUs).onCore
      (f := (·.sendMessage (.screenShareView stream none))) ⟨rfl, rfl, rfl, rfl, rfl⟩).rebuild
    have hnone := h.watching.no_streams hone
    convert hwatched using 2
    split <;>
      simp [stopVideoStreams, startVideoStream, openVideoRx, LobbyClient.onCore, hone, hnone]

theorem Watching.watchMore (h : c.Watching) (hmulti : c.multiStream = true) {stream : StreamId}
    (hs : stream ∈ c.sharers) (hnew : stream ∉ c.watched) (nowUs : Int) : ({ c with
      watched := stream :: c.watched
      viewingSharer := stream
      audioSharer := if videoStreamSource stream = some .screen then stream else c.audioSharer
      videoRx := c.videoRx.openStream stream nowUs
      videoStreams := stream :: c.videoStreams
      viewingSharerId := stream } : LobbyClient φ).Watching :=
  { h with
    nodup := List.nodup_cons.mpr ⟨hnew, h.nodup⟩
    listed := by
      intro s hmem
      rcases List.mem_cons.mp hmem with rfl | hmem
      · exact hs
      · exact h.listed s hmem
    received := by
      intro s
      rw [VideoReceiveRouter.isOpen_openStream, h.received]
      exact List.mem_cons.symm
    decoded := by simp [h.decoded, hmulti]
    single := by simp [hmulti]
    primary := .inl (List.mem_cons_self ..)
    shownPrimary := rfl
    audio := by
      by_cases hscreen : videoStreamSource stream = some .screen
      · simp [hscreen]
      · rcases h.audio with ⟨hmem, hsource⟩ | ⟨hzero, hnone⟩
        · simp [hscreen, hmem, hsource]
        · simp only [if_neg hscreen]
          refine .inr ⟨hzero, fun s hmem => ?_⟩
          rcases List.mem_cons.mp hmem with rfl | hmem
          · exact hscreen
          · exact hnone s hmem
    fullscreen := by simp }

theorem Consistent.addWatch (h : c.Consistent) (nowUs : Int) (stream : StreamId) :
    (c.addWatch nowUs stream).Consistent := by
  unfold LobbyClient.addWatch
  split
  · exact h
  next hlisted =>
    obtain ⟨-, hs⟩ := not_or.mp hlisted
    have hs : stream ∈ c.sharers := not_not.mp hs
    rcases hmulti : c.multiStream with _ | _
    · exact h.watchSingle hmulti hs nowUs
    · rw [if_neg (by decide)]
      split
      · exact h.showVoiceChannel _
      next hnew =>
        have hundecoded : stream ∉ c.videoStreams := fun hmem => hnew ((h.watching.decoded _).mp hmem).2
        have hwatched := ((h.watching.watchMore hmulti hs hnew nowUs).onCore
          (f := (·.sendMessage (.screenShareView stream (some 1)))) ⟨rfl, rfl, rfl, rfl, rfl⟩).rebuild
        convert hwatched using 2
        simp [startVideoStream, openVideoRx, LobbyClient.onCore, AppCore.sendMessage, hmulti,
          hundecoded]

theorem Consistent.watchSharer (h : c.Consistent) (nowUs : Int) (stream : StreamId) :
    (c.watchSharer nowUs stream).Consistent := by
  unfold LobbyClient.watchSharer
  split
  · exact h.watching.stopWatching
  · split
    · exact h
    next hlisted =>
      split
      · exact h.addWatch nowUs stream
      next hone =>
        exact h.watchSingle (by simpa using hone) (not_not.mp hlisted) nowUs

theorem Consistent.watchUser (h : c.Consistent) (nowUs : Int) (user : UserId) :
    (c.watchUser nowUs user).Consistent := by
  unfold LobbyClient.watchUser
  dsimp only
  split
  · split
    · exact h.addWatch nowUs _
    · exact h
  · have hcamera : (if decide (videoStreamId user .camera ∈ c.sharers) then
        c.addWatch nowUs (videoStreamId user .camera) else c).Consistent := by
      split
      · exact h.addWatch nowUs _
      · exact h
    split
    · exact hcamera.addWatch nowUs _
    · exact hcamera

theorem Consistent.toggleWatch (h : c.Consistent) (nowUs : Int) (stream : StreamId) :
    (c.toggleWatch nowUs stream).Consistent := by
  unfold LobbyClient.toggleWatch
  split
  · exact h.removeWatch stream
  · exact h.addWatch nowUs stream

theorem Consistent.setSingleWatched (h : c.Consistent) (hone : c.multiStream = false)
    {stream : StreamId} (hs : stream = 0 ∨ stream ∈ c.sharers) (nowUs : Int) :
    (c.setSingleWatched nowUs stream).Consistent := by
  unfold LobbyClient.setSingleWatched
  by_cases hoff : stream = 0
  · have hnone : ∀ s, s ∉ c.videoStreams := by simp [h.watching.no_streams hone]
    have hstopped := ((h.watching.watchNone hnone).onCore
      (f := (·.sendMessage (.screenShareView stream none))) ⟨rfl, rfl, rfl, rfl, rfl⟩).rebuild
    have hzero : screenOr0 stream = 0 := by rw [hoff, screenOr0, ite_self]
    simp only [ne_eq, hoff, not_true_eq_false, if_false, if_true] at hstopped hzero ⊢
    rw [hzero]
    exact hstopped
  · have hwatched := ((h.watching.watchOne hone (hs.resolve_left hoff) nowUs).onCore
      (f := (·.sendMessage (.screenShareView stream none))) ⟨rfl, rfl, rfl, rfl, rfl⟩).rebuild
    simp only [ne_eq, hoff, not_false_eq_true, if_true, if_false]
    exact hwatched

/-! ### The camera -/

theorem sameWatch_sendCameraStop (k : AppCore) (announced : Bool) :
    SameWatch k (k.sendCameraStop announced) := by
  unfold AppCore.sendCameraStop
  split <;> exact ⟨rfl, rfl, rfl, rfl, rfl⟩

/-- The own camera goes off, and its preview with it. -/
theorem Consistent.cameraOff (h : c.Consistent) {f : AppCore → AppCore}
    (hsame : SameWatch c.toAppCore (f c.toAppCore)) (stream : StreamId) (announced : Bool) :
    (((c.onCore f).removeWatch stream).onCore (·.sendCameraStop announced)).Consistent :=
  ((h.onCore hsame).removeWatch stream).onCore (sameWatch_sendCameraStop _ announced)

theorem Consistent.cameraFailed (h : c.Consistent) : c.cameraFailed.Consistent :=
  h.cameraOff (f := fun k => { k with
    cameraStarting := false
    cameraPreviewPending := false
    cameraRestartPending := false
    isCameraOn := false }) ⟨rfl, rfl, rfl, rfl, rfl⟩ c.camera c.announced

theorem Consistent.stopCamera (h : c.Consistent) (tellServer : Bool) :
    (c.stopCamera tellServer).Consistent := by
  unfold LobbyClient.stopCamera
  dsimp only
  split
  · exact h.onCore (f := fun k => { k with
      cameraStarting := false
      cameraPreviewPending := false
      cameraRestartPending := false }) ⟨rfl, rfl, rfl, rfl, rfl⟩
  · exact h.cameraOff (f := fun k => { k with
      cameraStarting := false
      cameraPreviewPending := false
      cameraRestartPending := false
      isCameraOn := false }) ⟨rfl, rfl, rfl, rfl, rfl⟩ c.camera _

theorem Consistent.startCamera (h : c.Consistent) (devices begun : Bool) :
    (c.startCamera devices begun).Consistent := by
  unfold LobbyClient.startCamera
  dsimp only
  split
  · exact h
  · split
    · exact h
    · split
      · exact h
      · have hstarting : ({ c with cameraStarting := true, isCameraOn := true } :
            LobbyClient φ).Consistent :=
          h.onCore (f := fun k => { k with cameraStarting := true, isCameraOn := true })
            ⟨rfl, rfl, rfl, rfl, rfl⟩
        split
        · exact hstarting
        · exact hstarting.cameraFailed

theorem Consistent.cameraStarted (h : c.Consistent) : c.cameraStarted.Consistent := by
  unfold LobbyClient.cameraStarted
  split
  · exact h
  next hstarting =>
    split
    · exact (h.onCore (f := fun k => { k with cameraStarting := false })
        ⟨rfl, rfl, rfl, rfl, rfl⟩).stopCamera true
    next hin =>
      refine h.onCore ?_
      unfold AppCore.cameraStarted
      rw [if_neg hstarting]
      dsimp only
      rw [if_neg hin]
      exact ⟨rfl, rfl, rfl, rfl, rfl⟩

theorem Consistent.toggleCamera (h : c.Consistent) (devices begun : Bool) :
    (c.toggleCamera devices begun).Consistent := by
  unfold LobbyClient.toggleCamera
  split
  · exact h.stopCamera true
  · exact h.startCamera devices begun

/-! ### Channels -/

theorem Consistent.joinChannel (h : c.Consistent) (channel : ChannelId) :
    (c.joinChannel channel).Consistent := by
  refine (h.showVoiceChannel channel).onCore ?_
  unfold AppCore.joinChannel
  split <;> exact ⟨rfl, rfl, rfl, rfl, rfl⟩

theorem Consistent.leaveSharePicker (h : c.Consistent) : c.leaveSharePicker.Consistent := by
  unfold LobbyClient.leaveSharePicker
  split
  · exact h.turn fun hmentions => h.shown.pages (DocumentRouter.mentions_back hmentions)
  · exact h

theorem Consistent.leaveChannel (h : c.Consistent) (tellServer : Bool) :
    (c.leaveChannel tellServer).Consistent := by
  unfold LobbyClient.leaveChannel
  split
  · exact h
  · extract_lets c₁ c₂ c₃ c₄
    have h₁ : c₁.Consistent := h.leaveSharePicker.stopCamera tellServer
    have h₂ : c₂.Consistent := by
      unfold c₂
      split
      · exact h₁.watching.stopWatching
      · exact h₁
    have h₃ : c₃.Consistent := h₂.watching.clearAllSharers
    have h₄ : c₄.Consistent := by
      unfold c₄
      split
      · exact h₃.onCore ⟨rfl, rfl, rfl, rfl, rfl⟩
      · exact h₃
    exact (h₄.onCore (f := fun k => { k with
        channels := ChannelInfo.modifyFirst c₄.currentChannel (·.eraseUser c₄.userId) c₄.channels
        currentChannel := 0 })
      ⟨rfl, rfl, rfl, rfl, rfl⟩).turn (by simp)

theorem Consistent.onDisconnectCleanup (h : c.Consistent) (user : UserId) :
    (c.onDisconnectCleanup user).Consistent := by
  have hwatching := (h.stopCamera false).watching
  have hcleared : (c.onDisconnectCleanup user).Watching :=
    { hwatching.clearAllSharers.watching with }
  exact ⟨hcleared, rfl, rfl, rfl, by simp [DocumentRouter.Mentions, LobbyClient.onDisconnectCleanup]⟩

/-! ### The messages of the server -/

theorem Consistent.enterChannel (h : c.Consistent) (channel : ChannelId) :
    (c.enterChannel channel).Consistent := by
  unfold LobbyClient.enterChannel
  extract_lets c₁ c₂ c₃
  have h₁ : c₁.Consistent :=
    h.onCore (f := fun k => { k with awaitingChannelJoin := false }) ⟨rfl, rfl, rfl, rfl, rfl⟩
  have h₂ : c₂.Consistent := by
    unfold c₂
    split
    · exact (h₁.stopCamera true).watching.clearAllSharers
    · exact h₁
  have h₃ : c₃.Consistent := by
    unfold c₃
    split
    · exact h₂.onCore (f := fun k => { k with
          channels := ChannelInfo.modifyFirst c₂.currentChannel (·.eraseUser c₂.userId) c₂.channels })
        ⟨rfl, rfl, rfl, rfl, rfl⟩
    · exact h₂
  exact h₃.onCore (f := fun k => { k with
      currentChannel := channel
      channels := ChannelInfo.modifyFirst channel (·.modifyUsers fun u =>
        if u.userId = c₃.userId then { u with muted := c₃.isMuted, deafened := c₃.isDeafened }
        else u) c₃.channels })
    ⟨rfl, rfl, rfl, rfl, rfl⟩

theorem Consistent.setChannels (h : c.Consistent) (channels : List ChannelInfo) :
    ({ c with channels := channels } : LobbyClient φ).Consistent :=
  h.onCore (f := fun k => { k with channels := channels }) ⟨rfl, rfl, rfl, rfl, rfl⟩

theorem Consistent.onChannelUserList (h : c.Consistent) (channel : ChannelId)
    (users : List ChannelUser) : (c.onChannelUserList channel users).Consistent := by
  unfold LobbyClient.onChannelUserList
  dsimp only
  split
  · exact (h.setChannels _).enterChannel channel
  · exact h.setChannels _

theorem Consistent.onUserLeft (h : c.Consistent) (user : UserId) (channel : ChannelId) :
    (c.onUserLeft user channel).Consistent := by
  unfold LobbyClient.onUserLeft
  split
  · exact h.leaveChannel false
  · refine Consistent.setChannels ?_ _
    split
    · exact ((h.watching.dropSharer _).dropSharer _).rebuild
    · exact h

/-- A new sharer is not watched yet. -/
theorem Consistent.addChannelSharer (h : c.Consistent) {stream : StreamId}
    (hvalid : videoStreamValid stream = true) : (c.addChannelSharer stream).Consistent := by
  refine ⟨h.watching.addChannelSharer hvalid, ?_⟩
  unfold LobbyClient.addChannelSharer
  split
  · exact { h.shown with }
  next hnew =>
    have hunwatched : stream ∉ c.watched := fun hmem => hnew (h.watching.listed stream hmem)
    exact
      { flags := by simp [h.shown.flags, hunwatched, ActiveSharer.of]
        cells := by simp [h.shown.cells, hunwatched]
        count := h.shown.count
        pages := h.shown.pages }

/-- A fresh buffer for a stream that has one. -/
theorem Consistent.reopen (h : c.Consistent) {stream : StreamId}
    (hopen : c.videoRx.isOpen stream = true) (nowUs : Int) :
    (c.openVideoRx nowUs stream).Consistent := by
  refine ⟨{ h.watching with received := fun s => ?_ }, { h.shown with }⟩
  rw [LobbyClient.openVideoRx, VideoReceiveRouter.isOpen_openStream, h.watching.received]
  exact ⟨fun hs => hs.elim (fun heq => heq ▸ (h.watching.received stream).mp hopen) id, .inr⟩

theorem Consistent.onScreenShareStarted (h : c.Consistent) (nowUs : Int) (stream : StreamId)
    (replay : Bool) : (c.onScreenShareStarted nowUs stream replay).Consistent := by
  unfold LobbyClient.onScreenShareStarted
  split
  · exact h
  next haccepts =>
    extract_lets c₁ c₂
    have hvalid : videoStreamValid stream = true := by
      simp only [AppCore.acceptsSharer, Bool.not_eq_true', Bool.not_eq_false, Bool.and_eq_true]
        at haccepts
      exact haccepts.1.2
    have h₁ : c₁.Consistent := h.addChannelSharer hvalid
    have h₂ : c₂.Consistent := by
      unfold c₂
      split
      next hlive =>
        exact h₁.reopen (Bool.and_eq_true_iff.mp hlive).2 nowUs
      · exact h₁
    split
    · exact (h₂.onCore (f := fun k => { k with cameraPreviewPending := false })
        ⟨rfl, rfl, rfl, rfl, rfl⟩).addWatch nowUs stream
    · exact h₂.watching.rebuild

theorem Consistent.onScreenShareStopped (h : c.Consistent) (stream : StreamId) :
    (c.onScreenShareStopped stream).Consistent := by
  unfold LobbyClient.onScreenShareStopped
  extract_lets c₁ c₂
  have h₂ : c₂.Consistent := by
    unfold c₂
    split
    next hs =>
      rw [removeWatch_of_mem hs, unwatch_removeChannelSharer]
      exact ((h.watching.unwatch stream).removeChannelSharer (c.not_mem_unwatch stream)).rebuild
    next hs =>
      exact (h.watching.removeChannelSharer hs).rebuild
  split
  · exact h₂
  · split
    · exact h₂.onCore (f := fun k => { k with cameraStopsInFlight := k.cameraStopsInFlight - 1 })
        ⟨rfl, rfl, rfl, rfl, rfl⟩
    · split
      · exact h₂.onCore (f := fun k => { k with cameraPreviewPending := false, isCameraOn := false })
          ⟨rfl, rfl, rfl, rfl, rfl⟩
      · exact h₂

theorem Consistent.handle (h : c.Consistent) (nowUs : Int) (message : LobbyMessage) :
    (c.handle nowUs message).Consistent := by
  rcases message with message | rows | ⟨user, muted, deafened⟩
  · cases message with
    | channelUserList channel users => exact h.onChannelUserList channel users
    | userLeftChannel user channel => exact h.onUserLeft user channel
    | screenShareStarted stream _ _ _ replay => exact h.onScreenShareStarted nowUs stream replay
    | screenShareStopped stream => exact h.onScreenShareStopped stream
    | userJoinedChannel user channel => exact h.setChannels _
    | userRoleChanged user role => exact h.setChannels _
    | serverError | authResponse | screenShareViewer | adminResult => exact h
  · exact h.setChannels _
  · exact h.setChannels _

/-! ### The part below -/

section Below

variable (c : LobbyClient φ)

@[simp] theorem toAppCore_onCore (f : AppCore → AppCore) : (c.onCore f).toAppCore = f c.toAppCore := rfl

@[simp] theorem toAppCore_rebuildWatchedModel : c.rebuildWatchedModel.toAppCore = c.toAppCore := rfl

@[simp] theorem toAppCore_showVoiceChannel (channel : ChannelId) :
    (c.showVoiceChannel channel).toAppCore = c.toAppCore := rfl

@[simp] theorem toAppCore_leaveSharePicker : c.leaveSharePicker.toAppCore = c.toAppCore := by
  unfold leaveSharePicker
  split <;> rfl

@[simp] theorem toAppCore_removeWatch (stream : StreamId) :
    (c.removeWatch stream).toAppCore = c.toAppCore.removeWatch stream := by
  by_cases hs : stream ∈ c.watched
  · rw [removeWatch_of_mem hs, unwatch_eq]
    exact (if_neg (not_not_intro hs)).symm
  · rw [removeWatch_of_not_mem hs]
    exact (if_pos hs).symm

theorem toAppCore_watchSingle (nowUs : Int) (stream : StreamId) :
    (c.watchSingle nowUs stream).toAppCore = c.toAppCore.watchSharer stream := by
  unfold watchSingle AppCore.watchSharer
  split
  · rfl
  · dsimp only
    split <;> rfl

@[simp] theorem toAppCore_addWatch (nowUs : Int) (stream : StreamId) :
    (c.addWatch nowUs stream).toAppCore = c.toAppCore.addWatch stream := by
  unfold addWatch AppCore.addWatch
  split
  · rfl
  · split
    · exact c.toAppCore_watchSingle nowUs stream
    · split <;> rfl

@[simp] theorem toAppCore_dropSharer (stream : StreamId) :
    (c.dropSharer stream).toAppCore = c.toAppCore.dropSharer stream :=
  toAppCore_removeWatch (c.removeChannelSharer stream) stream

@[simp] theorem toAppCore_stopCamera (tellServer : Bool) :
    (c.stopCamera tellServer).toAppCore = c.toAppCore.stopCamera tellServer := by
  unfold stopCamera AppCore.stopCamera
  dsimp only
  split
  · rfl
  · simp

theorem toAppCore_leaveChannel (tellServer : Bool) :
    (c.leaveChannel tellServer).toAppCore = c.toAppCore.leaveChannel tellServer := by
  unfold leaveChannel AppCore.leaveChannel
  split
  · rfl
  · extract_lets c₁ c₂ c₃ c₄ k₁ k₂ k₃ k₄
    have h₁ : c₁.toAppCore = k₁ := by simp [c₁, k₁]
    have h₂ : c₂.toAppCore = k₂ := by
      simp only [c₂, k₂, ← h₁]
      split <;> rfl
    have h₃ : c₃.toAppCore = k₃ := by
      simp only [c₃, k₃, ← h₂]
      rfl
    have h₄ : c₄.toAppCore = k₄ := by
      simp only [c₄, k₄, ← h₃]
      split <;> rfl
    simp only [← h₄]

theorem toAppCore_enterChannel (channel : ChannelId) :
    (c.enterChannel channel).toAppCore = c.toAppCore.enterChannel channel := by
  unfold enterChannel AppCore.enterChannel
  extract_lets c₁ c₂ c₃ k₁ k₂ k₃
  have h₁ : c₁.toAppCore = k₁ := rfl
  have h₂ : c₂.toAppCore = k₂ := by
    simp only [c₂, k₂, ← h₁]
    split
    · exact congrArg AppCore.clearAllSharers (c₁.toAppCore_stopCamera true)
    · rfl
  have h₃ : c₃.toAppCore = k₃ := by
    simp only [c₃, k₃, ← h₂]
    split <;> rfl
  simp only [← h₃]

theorem toAppCore_onUserLeft (user : UserId) (channel : ChannelId) :
    (c.onUserLeft user channel).toAppCore = c.toAppCore.onUserLeft user channel := by
  unfold onUserLeft AppCore.onUserLeft
  split
  · exact c.toAppCore_leaveChannel false
  · dsimp only
    split
    · simp
    · rfl

theorem toAppCore_onScreenShareStarted (nowUs : Int) (stream : StreamId) (replay : Bool) :
    (c.onScreenShareStarted nowUs stream replay).toAppCore =
      c.toAppCore.onScreenShareStarted stream := by
  unfold onScreenShareStarted AppCore.onScreenShareStarted
  split
  · rfl
  · extract_lets c₁ c₂ k₁
    have h₁ : c₁.toAppCore = k₁ := by
      simp only [c₁, k₁, addChannelSharer]
      split <;> rfl
    have h₂ : c₂.toAppCore = k₁ := by
      rw [← h₁]
      simp only [c₂]
      split <;> rfl
    simp only [← h₂]
    split
    · exact toAppCore_addWatch _ nowUs stream
    · rfl

theorem toAppCore_onScreenShareStopped (stream : StreamId) :
    (c.onScreenShareStopped stream).toAppCore = c.toAppCore.onScreenShareStopped stream := by
  unfold onScreenShareStopped AppCore.onScreenShareStopped
  extract_lets c₁ c₂ k₁
  have h₂ : c₂.toAppCore = k₁ := by
    simp only [c₂, k₁, ← toAppCore_dropSharer, dropSharer]
    split
    · rfl
    next hs =>
      rw [removeWatch_of_not_mem hs]
      rfl
  simp only [← h₂]
  split
  · rfl
  · split
    · rfl
    · split <;> rfl

/-- The messages of the server do to the part below what `AppCore` says. -/
theorem toAppCore_handle (nowUs : Int) (message : LobbyMessage) :
    (c.handle nowUs message).toAppCore = c.toAppCore.handle message := by
  rcases message with message | rows | ⟨user, muted, deafened⟩
  · cases message with
    | channelUserList channel users =>
        change (c.onChannelUserList channel users).toAppCore = _
        simp only [onChannelUserList, AppCore.handle, AppCore.onChannelUserList]
        split
        · exact toAppCore_enterChannel _ channel
        · rfl
    | userLeftChannel user channel => exact c.toAppCore_onUserLeft user channel
    | screenShareStarted stream _ _ _ replay =>
        exact c.toAppCore_onScreenShareStarted nowUs stream replay
    | screenShareStopped stream => exact c.toAppCore_onScreenShareStopped stream
    | _ => rfl
  · rfl
  · rfl

end Below

/-! ### Runs -/

variable [FrameBytes φ]

theorem Consistent.receive (h : c.Consistent) {op : RouterOp φ} (hop : isWatch op = false) :
    ({ c with videoRx := (c.videoRx.step op).1 } : LobbyClient φ).Consistent := by
  refine ⟨{ h.watching with playout := ?_, received := fun s => ?_ }, { h.shown with }⟩
  · exact VideoReceiveRouter.step_playout h.watching.playout op
  · rw [VideoReceiveRouter.isOpen_step h.watching.playout hop]
    exact h.watching.received s

theorem Consistent.step (h : c.Consistent) {op : ClientOp φ} (hoffered : c.Offered op) :
    (c.step op).Consistent := by
  have hkept : ∀ route, route ≠ .streams → (c.router.push route).Mentions → c.watched ≠ [] :=
    fun route hroute hmentions =>
      h.shown.pages ((DocumentRouter.mentions_push hmentions).resolve_left hroute)
  have hback : c.router.back.Mentions → c.watched ≠ [] :=
    fun hmentions => h.shown.pages (DocumentRouter.mentions_back hmentions)
  cases op with
  | joinChannel channel => exact h.joinChannel channel
  | leaveChannel => exact h.leaveChannel true
  | toggleMute => exact h.onCore ⟨rfl, rfl, rfl, rfl, rfl⟩
  | toggleDeafen => exact h.onCore ⟨rfl, rfl, rfl, rfl, rfl⟩
  | watchSharer nowUs stream => exact h.watchSharer nowUs stream
  | addWatch nowUs stream => exact h.addWatch nowUs stream
  | watchUser nowUs user => exact h.watchUser nowUs user
  | toggleWatch nowUs stream => exact h.toggleWatch nowUs stream
  | stopWatching => exact h.watching.stopWatching
  | setSingleWatched nowUs stream => exact h.setSingleWatched hoffered.1 hoffered.2 nowUs
  | toggleCamera devices begun => exact h.toggleCamera devices begun
  | restartCamera =>
      refine h.onCore ?_
      unfold AppCore.restartCamera
      split <;> exact ⟨rfl, rfl, rfl, rfl, rfl⟩
  | selectTextChannel => exact h.turn (by simp)
  | openSettings => exact h.turn (hkept _ (by decide))
  | openSharePicker => exact h.turn (hkept _ (by decide))
  | closeSharePicker => exact h.leaveSharePicker
  | routeBack => exact h.turn hback
  | mobileBack =>
      simp only [LobbyClient.step]
      split
      · exact h.watching.stopWatching
      · exact h.turn hback
  | toggleStreamFullscreen cell =>
      have hstreams : c.router.current = .streams := by
        simpa [DocumentRouter.is] using hoffered.1
      exact ⟨{ h.watching with fullscreen := fun _ => h.shown.pages (.inl hstreams) },
        { h.shown with }⟩
  | exitFullscreen => exact ⟨{ h.watching with fullscreen := nofun }, { h.shown with }⟩
  | cameraStarted => exact h.cameraStarted
  | cameraFailed => exact h.cameraFailed
  | stopScreenShare => exact h.removeWatch c.userId
  | message nowUs message => exact h.handle nowUs message
  | receive op =>
      simp only [LobbyClient.step]
      split
      · exact h
      next hop =>
        exact h.receive (by simpa using hop)
  | disconnected user => exact h.onDisconnectCleanup user

/-- In every run of actions the pages offer, the grid, the receive router, the decoders of a
platform that has one for each stream, the stream audio and the pages agree with what is watched,
and only sharers of the channel are watched. -/
theorem grid_consistent (user : UserId) (multiStream cameraSupported : Bool)
    (ops : List (ClientOp φ))
    (hoffered : Machine.AllSteps step Offered (signedIn user multiStream cameraSupported) ops) :
    ((signedIn user multiStream cameraSupported : LobbyClient φ).run ops).Consistent := by
  refine Machine.run_invariant
    (fun c op (h : Consistent c) hop => Consistent.step h hop) ?_ hoffered
  refine ⟨⟨?_, ?_, ?_, ?_, ?_, ?_, ?_, ?_, ?_, ?_, ?_, ?_, ?_, ?_⟩, ⟨?_, ?_, ?_, ?_⟩⟩ <;>
    simp [signedIn, VideoReceiveRouter.new, VideoReceiveRouterConfig.normalized,
      VideoReceiveRouter.isOpen, DocumentRouter.Mentions]

/-- User 2 shares a screen. It is watched and put on the whole screen, the chat hides it, and the
room shows it again. -/
def hiddenByChat : List (ClientOp Bytes) :=
  [.message 0 (.channelList
      [{ id := 7, name := "room", maxUsers := 0, sortOrder := 0, userCount := 1 }]),
    .joinChannel 7,
    .message 0 (.server (.channelUserList 7
      [⟨1, "a", 3, false, false⟩, ⟨2, "b", 3, false, false⟩])),
    .message 0 (.server (.screenShareStarted 2 0 0 0 false)), .watchUser 0 2,
    .toggleStreamFullscreen 2, .selectTextChannel, .joinChannel 7]

example :
    let c := (signedIn 1 true true : LobbyClient Bytes).run hiddenByChat
    c.grid = [⟨2, 2, false, false⟩] ∧ c.router.current = .streams ∧ c.audioSharer = 2 ∧
      c.streamFullscreen = true := by
  decide

theorem grid_consistent_hiddenByChat :
    ((signedIn 1 true true : LobbyClient Bytes).run hiddenByChat).Consistent :=
  grid_consistent 1 true true hiddenByChat (by decide)

end LobbyClient

end Parties.Client
