import Adas.MjpegStreamServer

/-!
# What the browsers see

However the threads interleave, how ever few bytes a socket takes at a time and
whenever it fails: the complete pictures in a response are encodings of published
frames in their order, and once everything has come to rest the last of them is
that of the last frame.
-/

namespace Adas.MjpegStreamServer

open LatestSlot (Follows)
open LengthFramed (Byte PartFormat)

section Responses

/-- The response when these pictures are written. -/
def response (jpegs : List (List Byte)) : List Byte :=
  kHeader ++ (jpegs.map partFormat.part).flatten

/-- What is written last of such a response. -/
def lastChunk (jpegs : List (List Byte)) : List Byte :=
  match jpegs.getLast? with
  | none => kHeader
  | some jpeg => partFormat.part jpeg

/-- These pictures were taken, and all of their response is written except for
blocks that belong to its last chunk. -/
structure Carries (taken : List (List Byte)) (client : Client) : Prop where
  whole : client.written ++ client.pending.flatten = response taken
  chunk : client.pending.flatten <:+ lastChunk taken

variable {taken : List (List Byte)} {client : Client}

theorem header_length_lt {size : Nat} (fits : size < 2 ^ 64) :
    (partFormat.header size).length < 128 := by
  have digits : (Nat.toDigits 10 size).length ≤ 20 := by
    rw [Nat.length_toDigits_le_iff (by decide) (by decide)]
    exact lt_trans fits (by decide)
  have start : partFormat.start.length = 55 := by decide
  have middle : partFormat.middle.length = 3 := by decide
  simp only [PartFormat.header, LengthFramed.decimal, LengthFramed.ascii,
    List.length_append, List.length_cons, List.length_map, start, middle]
  omega

/-- The buffer for the header is large enough, so that the blocks are the part. -/
theorem flatten_blocks {jpeg : List Byte} (fits : jpeg.length < 2 ^ 64) :
    (blocks jpeg).flatten = partFormat.part jpeg := by
  have short := header_length_lt fits
  have inBuffer : (partFormat.header jpeg.length).take (128 - 1) =
      partFormat.header jpeg.length := List.take_of_length_le (by omega)
  simp only [blocks, snprintf, inBuffer, List.take_left]
  simp [PartFormat.part]

theorem flatten_skipEmpty (blocks : List (List Byte)) :
    (skipEmpty blocks).flatten = blocks.flatten := by
  induction blocks with
  | nil => rfl
  | cons block blocks ih =>
      cases block with
      | nil => exact ih
      | cons byte bytes => rfl

theorem response_append (taken : List (List Byte)) (jpeg : List Byte) :
    response (taken ++ [jpeg]) = response taken ++ partFormat.part jpeg := by
  simp [response]

theorem lastChunk_concat (taken : List (List Byte)) (jpeg : List Byte) :
    lastChunk (taken ++ [jpeg]) = partFormat.part jpeg := by
  rw [lastChunk, List.getLast?_concat]

theorem viewed_response (taken : List (List Byte)) {cut : List Byte}
    (ends : partFormat.readPart cut = none) : viewed (response taken ++ cut) = taken := by
  rw [viewed, response, List.append_assoc, PartFormat.dropPrefix_eq_some_iff.mpr rfl]
  exact PartFormat.readAll_parts taken ends

theorem viewed_of_cutOff {written more : List Byte} (missing : more ≠ [])
    (cutOff : written ++ more = kHeader) : viewed written = [] := by
  rw [viewed]
  rcases found : written.dropPrefix? kHeader with _ | rest
  · rfl
  · have isPrefix := PartFormat.dropPrefix_eq_some_iff.mp found
    have positive := List.length_pos_of_ne_nil missing
    have lengths := congrArg List.length cutOff
    rw [isPrefix] at lengths
    simp only [List.length_append] at lengths
    omega

/-- Nothing but the last chunk can be incomplete, and a browser passes over it. -/
theorem Carries.viewed (carries : Carries taken client) :
    (viewed client.written).Sublist taken ∧
      (client.pending.flatten = [] → viewed client.written = taken) := by
  have whole := carries.whole
  have nothing : partFormat.readPart [] = none := by decide
  rcases pending : client.pending.flatten with _ | ⟨byte, bytes⟩
  · rw [pending, List.append_nil] at whole
    have all := viewed_response taken nothing
    rw [List.append_nil, ← whole] at all
    exact ⟨all ▸ List.Sublist.refl _, fun _ => all⟩
  · refine ⟨?_, nofun⟩
    obtain ⟨cut, cutOff⟩ := carries.chunk
    rw [pending] at cutOff whole
    rcases List.eq_nil_or_concat' taken with rfl | ⟨earlier, jpeg, rfl⟩
    · rw [viewed_of_cutOff (List.cons_ne_nil byte bytes) (whole.trans (List.append_nil _))]
    · rw [lastChunk_concat] at cutOff
      rw [response_append, ← cutOff, ← List.append_assoc] at whole
      rw [List.append_cancel_right whole, viewed_response earlier
        (PartFormat.readPart_of_cutOff (List.cons_ne_nil byte bytes) cutOff)]
      exact List.sublist_append_left _ _

end Responses

section Bookkeeping

variable {Picture : Type*}

/-- The frames that were published, with their overlays. -/
def published (happenings : List (Happening Picture)) :
    List (Picture × List RoiOverlay) :=
  happenings.filterMap fun
    | .published frame => some frame
    | _ => none

/-- The pictures that were handed to the browsers. -/
def stored (happenings : List (Happening Picture)) : List (List Byte) :=
  happenings.filterMap fun
    | .stored jpeg => some jpeg
    | _ => none

theorem published_append (past : List (Happening Picture))
    (happening : Happening Picture) :
    published (past ++ [happening]) = published past ++ published [happening] :=
  List.filterMap_append

theorem stored_append (past : List (Happening Picture)) (happening : Happening Picture) :
    stored (past ++ [happening]) = stored past ++ stored [happening] :=
  List.filterMap_append

/-- A browser's thread at a place where it can be. -/
inductive Client.Sound (stored : List (List Byte)) (client : Client) : Prop
  | coming (place : client.place = .accepted ∨ client.place = .receiving)
      (written : client.written = []) (lastSent : client.lastSent = 0)
  | serving (taken : List (List Byte))
      (begun : client.place ≠ .accepted ∧ client.place ≠ .receiving)
      (follows : Follows stored client.lastSent taken) (carries : Carries taken client)
      (complete : client.place = .checking ∨ client.place = .waiting →
        client.pending.flatten = [])

/-- The thread has raised the counter and not lowered it yet. -/
def Client.isCounted (client : Client) : Bool :=
  client.place ≠ .accepted && client.place ≠ .exited

/-- The picture that the encoder has taken and not yet handed on. -/
def Encoder.inWork (encoded : Picture × List RoiOverlay → Option (List Byte)) :
    Encoder Picture → List (List Byte)
  | .encoding frame => (encoded frame).toList
  | .storing jpeg => [jpeg]
  | _ => []

variable (cv : OpenCv Picture) (config : MjpegServerConfig)

/-- The frames that the encoder has taken, and what became of them. -/
structure EncoderSound (past : List (Happening Picture)) (server : Server Picture)
    (taken : List (Picture × List RoiOverlay)) : Prop where
  follows : Follows (published past) server.lastEncoded taken
  results : stored past ++ server.encoder.inWork (encoded cv config) =
    taken.filterMap (encoded cv config)

structure Sound (past : List (Happening Picture)) (server : Server Picture) : Prop where
  frames : server.frames.Holds (published past)
  hasFrame : server.hasFrame = !(published past).isEmpty
  jpegs : server.jpegs.Holds (stored past)
  encoder : ∃ taken, EncoderSound cv config past server taken
  clients : ∀ client ∈ server.clients, client.Sound (stored past)
  counted : server.clientCount = server.clients.countP Client.isCounted

theorem sound_started : Sound cv config [] (started : Server Picture) where
  frames := LatestSlot.holds_empty
  hasFrame := rfl
  jpegs := LatestSlot.holds_empty
  encoder := ⟨[], LatestSlot.follows_nil [], rfl⟩
  clients := by simp [started]
  counted := rfl

variable {cv config} {past : List (Happening Picture)} {server next : Server Picture}
  {taken : List (Picture × List RoiOverlay)}

theorem EncoderSound.length_stored_le (sound : EncoderSound cv config past server taken) :
    (stored past ++ server.encoder.inWork (encoded cv config)).length ≤
      (published past).length := by
  rw [sound.results]
  have inOrder := sound.follows.inOrder.trans (List.take_sublist _ _)
  exact le_trans (List.length_filterMap_le _ _) inOrder.length_le

/-- The step keeps what is sound, as long as the frames can be counted. -/
def Kept (cv : OpenCv Picture) (config : MjpegServerConfig)
    (past : List (Happening Picture)) (result : Server Picture × Happening Picture) :
    Prop :=
  (published (past ++ [result.2])).length < 2 ^ 64 →
    Sound cv config (past ++ [result.2]) result.1

theorem published_quiet : published (past ++ [.quiet]) = published past := by
  rw [published_append]
  exact List.append_nil _

theorem stored_quiet : stored (past ++ [.quiet]) = stored past := by
  rw [stored_append]
  exact List.append_nil _

theorem Sound.idle (sound : Sound cv config past server) :
    Kept cv config past (server, .quiet) := by
  intro _
  obtain ⟨taken, encoder⟩ := sound.encoder
  refine ⟨?_, ?_, ?_, ⟨taken, ?_, ?_⟩, ?_, sound.counted⟩
  · exact published_quiet.symm ▸ sound.frames
  · exact published_quiet.symm ▸ sound.hasFrame
  · exact stored_quiet.symm ▸ sound.jpegs
  · exact published_quiet.symm ▸ encoder.follows
  · exact stored_quiet.symm ▸ encoder.results
  · exact stored_quiet.symm ▸ sound.clients

theorem Sound.publish (sound : Sound cv config past server) (frame : Picture)
    (overlays : List RoiOverlay) :
    Kept cv config past (publish server frame overlays) := by
  rw [MjpegStreamServer.publish]
  split_ifs with running
  · intro countable
    have grows : published (past ++ [.published (frame, overlays)]) =
        published past ++ [(frame, overlays)] := published_append past _
    have stays : stored (past ++ [.published (frame, overlays)]) = stored past := by
      rw [stored_append]
      exact List.append_nil _
    obtain ⟨taken, encoder⟩ := sound.encoder
    refine ⟨?_, ?_, ?_, ⟨taken, ?_, ?_⟩, ?_, sound.counted⟩
    · rw [grows]
      refine sound.frames.publish _ ?_
      simpa [grows] using countable
    · rw [grows]
      simp
    · exact stays.symm ▸ sound.jpegs
    · exact grows.symm ▸ encoder.follows.publish _
    · exact stays.symm ▸ encoder.results
    · exact stays.symm ▸ sound.clients
  · exact sound.idle

/-- The encoder goes on with what it has in work. -/
theorem Sound.encodes (sound : Sound cv config past server) {encoder : Encoder Picture}
    (same : encoder.inWork (encoded cv config) =
      server.encoder.inWork (encoded cv config)) :
    Kept cv config past ({ server with encoder := encoder }, .quiet) := by
  obtain ⟨taken, encoding⟩ := sound.encoder
  have moved : Sound cv config past { server with encoder := encoder } :=
    ⟨sound.frames, sound.hasFrame, sound.jpegs,
      ⟨taken, encoding.follows, same.symm ▸ encoding.results⟩, sound.clients, sound.counted⟩
  exact moved.idle

theorem Sound.takes (sound : Sound cv config past server)
    (place : server.encoder = .waiting)
    (new : server.frames.isNew server.lastEncoded = true) :
    ∃ frame, server.frames.latest = some frame ∧ Kept cv config past ({ server with
      lastEncoded := server.frames.version, encoder := .encoding frame }, .quiet) := by
  obtain ⟨taken, encoding⟩ := sound.encoder
  obtain ⟨frame, newest, _, follows⟩ := encoding.follows.take sound.frames new
  have results : stored past ++ (encoded cv config frame).toList =
      (taken ++ [frame]).filterMap (encoded cv config) := by
    have before := encoding.results
    rw [place] at before
    rw [List.filterMap_append, ← before]
    cases made : encoded cv config frame <;> simp [Encoder.inWork, made]
  have moved : Sound cv config past { server with
      lastEncoded := server.frames.version, encoder := .encoding frame } :=
    ⟨sound.frames, sound.hasFrame, sound.jpegs, ⟨taken ++ [frame], follows, results⟩,
      sound.clients, sound.counted⟩
  exact ⟨frame, newest, moved.idle⟩

theorem Client.Sound.publish {jpegs : List (List Byte)} {client : Client}
    (sound : client.Sound jpegs) (jpeg : List Byte) : client.Sound (jpegs ++ [jpeg]) := by
  cases sound with
  | coming place written lastSent => exact .coming place written lastSent
  | serving taken begun follows carries complete =>
      exact .serving taken begun (follows.publish jpeg) carries complete

theorem Sound.stores (sound : Sound cv config past server) {jpeg : List Byte}
    (place : server.encoder = .storing jpeg) :
    Kept cv config past ({ server with
      jpegs := server.jpegs.publish jpeg, encoder := .checking }, .stored jpeg) := by
  intro countable
  obtain ⟨taken, encoding⟩ := sound.encoder
  have results := encoding.results
  have few := encoding.length_stored_le
  rw [place] at results few
  have stays : published (past ++ [.stored jpeg]) = published past := by
    rw [published_append]
    exact List.append_nil _
  have grows : stored (past ++ [.stored jpeg]) = stored past ++ [jpeg] :=
    stored_append past _
  rw [stays] at countable
  refine ⟨stays.symm ▸ sound.frames, stays.symm ▸ sound.hasFrame, ?_, ⟨taken, ?_, ?_⟩, ?_,
    sound.counted⟩
  · rw [grows]
    refine sound.jpegs.publish jpeg ?_
    simp only [Encoder.inWork, List.length_append, List.length_singleton] at few
    exact lt_of_le_of_lt few countable
  · exact stays.symm ▸ encoding.follows
  · rw [grows]
    exact (List.append_nil _).trans results
  · rw [grows]
    exact fun client inside => (sound.clients client inside).publish jpeg

theorem Sound.encoderStep (sound : Sound cv config past server) (timedOut : Bool) :
    Kept cv config past (encoderStep cv config server timedOut) := by
  unfold MjpegStreamServer.encoderStep
  cases place : server.encoder with
  | checking =>
      have moves : ∀ encoder : Encoder Picture, encoder.inWork (encoded cv config) = [] →
          Kept cv config past ({ server with encoder := encoder }, .quiet) :=
        fun encoder nothing => sound.encodes (by rw [nothing, place]; rfl)
      simp only
      split
      · exact moves _ rfl
      · exact moves _ rfl
  | waiting =>
      have moves : ∀ encoder : Encoder Picture, encoder.inWork (encoded cv config) = [] →
          Kept cv config past ({ server with encoder := encoder }, .quiet) :=
        fun encoder nothing => sound.encodes (by rw [nothing, place]; rfl)
      simp only
      split_ifs with stopped hasNews
      · exact moves _ rfl
      · simp only [Bool.and_eq_true] at hasNews
        obtain ⟨frame, newest, kept⟩ := sound.takes place hasNews.2
        rw [newest]
        exact kept
      · exact moves _ rfl
      · exact sound.idle
  | encoding frame =>
      have moves : ∀ encoder : Encoder Picture,
          encoder.inWork (encoded cv config) = (encoded cv config frame).toList →
            Kept cv config past ({ server with encoder := encoder }, .quiet) :=
        fun encoder same => sound.encodes (by rw [same, place]; rfl)
      cases made : encoded cv config frame with
      | some jpeg => simpa only [made] using moves (.storing jpeg) (by rw [made]; rfl)
      | none => simpa only [made] using moves .checking (by rw [made]; rfl)
  | storing jpeg => exact sound.stores place
  | exited => exact sound.idle

end Bookkeeping

section Browsers

variable {jpegs taken : List (List Byte)} {client : Client}

/-- What a client is given to write completes the response to what it has taken. -/
theorem Client.Sound.write (follows : Follows jpegs client.lastSent taken)
    {blocks : List (List Byte)}
    (whole : client.written ++ blocks.flatten = response taken)
    (chunk : blocks.flatten <:+ lastChunk taken) : (client.write blocks).Sound jpegs := by
  have same := flatten_skipEmpty blocks
  refine .serving taken ?_ follows ⟨?_, ?_⟩ ?_
  · simp only [Client.write]
    split_ifs <;> exact ⟨nofun, nofun⟩
  · simpa only [Client.write, same] using whole
  · simpa only [Client.write, same] using chunk
  · intro resting
    simp only [Client.write] at resting ⊢
    split_ifs at resting with nothing
    · rw [List.isEmpty_iff.mp nothing]
      rfl
    · simp at resting

theorem Client.Sound.moves (follows : Follows jpegs client.lastSent taken)
    (carries : Carries taken client) {place : Place}
    (begun : place ≠ .accepted ∧ place ≠ .receiving)
    (complete : place = .checking ∨ place = .waiting → client.pending.flatten = []) :
    ({ client with place := place } : Client).Sound jpegs :=
  .serving taken begun follows ⟨carries.whole, carries.chunk⟩ complete

variable {Picture : Type*} {server : Server Picture}

/-- A waiting thread takes the newest picture, if there is one that it has not
sent. -/
theorem Client.Sound.takes (holds : server.jpegs.Holds jpegs)
    (fits : ∀ jpeg ∈ jpegs, jpeg.length < 2 ^ 64)
    (follows : Follows jpegs client.lastSent taken) (carries : Carries taken client)
    (complete : client.pending.flatten = [])
    (new : server.jpegs.isNew client.lastSent = true) {jpeg : List Byte}
    (newest : server.jpegs.latest = some jpeg) :
    (Client.write { client with lastSent := server.jpegs.version }
      (blocks jpeg)).Sound jpegs := by
  obtain ⟨value, isValue, _, follows⟩ := follows.take holds new
  obtain rfl := Option.some.inj (newest.symm.trans isValue)
  have stored : jpeg ∈ jpegs := by
    rw [holds.latest] at newest
    exact List.mem_of_getLast? newest
  have written := carries.whole
  rw [complete, List.append_nil] at written
  refine Client.Sound.write follows ?_ ?_
  · rw [flatten_blocks (fits jpeg stored), response_append, ← written]
  · rw [flatten_blocks (fits jpeg stored), lastChunk_concat]

theorem Client.Sound.begins (written : client.written = []) (lastSent : client.lastSent = 0) :
    (client.write [kHeader]).Sound jpegs := by
  have follows : Follows jpegs client.lastSent [] := by
    rw [lastSent]
    exact LatestSlot.follows_nil jpegs
  refine Client.Sound.write follows ?_ ?_
  · rw [written, List.flatten_singleton, response, List.map_nil, List.flatten_nil,
      List.append_nil, List.nil_append]
  · rw [List.flatten_singleton, lastChunk, List.getLast?_nil]

theorem Client.Sound.proceed (sound : client.Sound jpegs)
    (holds : server.jpegs.Holds jpegs) (fits : ∀ jpeg ∈ jpegs, jpeg.length < 2 ^ 64)
    (timedOut : Bool) : (client.proceed server timedOut).Sound jpegs := by
  unfold Client.proceed
  cases sound with
  | coming place written lastSent =>
      rcases place with place | place
      · rw [place]
        exact .coming (.inr rfl) written lastSent
      · rw [place]
        exact Client.Sound.begins written lastSent
  | serving taken begun follows carries complete =>
      -- A thread with nothing left to write may go anywhere, one that gives up too.
      have moves : client.pending.flatten = [] → ∀ place,
          place ≠ .accepted ∧ place ≠ .receiving →
            ({ client with place := place } : Client).Sound jpegs :=
        fun nothing place begun => Client.Sound.moves follows carries begun fun _ => nothing
      cases place : client.place with
      | accepted => exact absurd place begun.1
      | receiving => exact absurd place begun.2
      | checking =>
          have nothing := complete (.inl place)
          simp only
          split
          · exact moves nothing .waiting ⟨nofun, nofun⟩
          · exact moves nothing .closing ⟨nofun, nofun⟩
      | waiting =>
          have nothing := complete (.inr place)
          simp only
          split_ifs with stopped new
          · exact moves nothing .closing ⟨nofun, nofun⟩
          · split
            · exact Client.Sound.takes holds fits follows carries nothing new ‹_›
            · exact moves nothing .checking ⟨nofun, nofun⟩
          · exact moves nothing .checking ⟨nofun, nofun⟩
          · exact .serving taken begun follows carries complete
      | closing => exact Client.Sound.moves follows carries ⟨nofun, nofun⟩ nofun
      | leaving => exact Client.Sound.moves follows carries ⟨nofun, nofun⟩ nofun
      | writing => exact .serving taken begun follows carries complete
      | exited => exact .serving taken begun follows carries complete

theorem Client.Sound.sends (follows : Follows jpegs client.lastSent taken)
    (carries : Carries taken client) {block : List Byte} {blocks : List (List Byte)}
    (pending : client.pending = block :: blocks) (count : Nat) :
    (Client.write { client with written := client.written ++ block.take count }
      (block.drop count :: blocks)).Sound jpegs := by
  have whole := carries.whole
  have chunk := carries.chunk
  rw [pending, List.flatten_cons] at whole chunk
  have unmoved : Follows jpegs
      ({ client with written := client.written ++ block.take count } : Client).lastSent
      taken := follows
  refine Client.Sound.write unmoved ?_ ?_
  · rw [← whole, List.flatten_cons, List.append_assoc, ← List.append_assoc (block.take count),
      List.take_append_drop]
  · refine List.IsSuffix.trans ⟨block.take count, ?_⟩ chunk
    rw [List.flatten_cons, ← List.append_assoc, List.take_append_drop]

theorem Client.Sound.step (sound : client.Sound jpegs) (holds : server.jpegs.Holds jpegs)
    (fits : ∀ jpeg ∈ jpegs, jpeg.length < 2 ^ 64) (move : Move) :
    (client.step server move).Sound jpegs := by
  cases move with
  | proceed timedOut => exact sound.proceed holds fits timedOut
  | sent count =>
      unfold Client.step
      cases place : client.place with
      | writing =>
          cases pending : client.pending with
          | nil => simpa only using sound
          | cons block blocks =>
              simp only
              split_ifs with moved
              · cases sound with
                | coming atStart => simp [place] at atStart
                | serving taken begun follows carries complete =>
                    simpa only [place, pending] using
                      Client.Sound.sends follows carries pending count
              · exact sound
      | _ => exact sound
  | failed =>
      unfold Client.step
      cases place : client.place with
      | writing =>
          cases sound with
          | coming atStart => simp [place] at atStart
          | serving taken begun follows carries complete =>
              exact Client.Sound.moves follows carries ⟨nofun, nofun⟩ nofun
      | _ => exact sound

end Browsers

section Runs

variable {Picture : Type*} {cv : OpenCv Picture} {config : MjpegServerConfig}
  {past : List (Happening Picture)} {server : Server Picture}

/-- Every picture that is handed on has a size that `size_t` can hold. -/
theorem Sound.fits (sound : Sound cv config past server) :
    ∀ jpeg ∈ stored past, jpeg.length < 2 ^ 64 := by
  intro jpeg inside
  obtain ⟨taken, encoding⟩ := sound.encoder
  have made : jpeg ∈ taken.filterMap (encoded cv config) := by
    rw [← encoding.results]
    exact List.mem_append_left _ inside
  obtain ⟨frame, _, isEncoded⟩ := List.mem_filterMap.mp made
  exact cv.imencode_size _ _ jpeg isEncoded

theorem isCounted_write (client : Client) (blocks : List (List Byte)) :
    (client.write blocks).isCounted = true := by
  unfold Client.write Client.isCounted
  split_ifs <;> rfl

/-- Only the first and the last statement of a thread change whether it is counted,
and these change the counter. -/
theorem isCounted_step (client : Client) (server : Server Picture) (move : Move) :
    (client.isCounted = false ∧ (client.step server move).isCounted = true ∧
      ∀ count, countAfter client move count = count + 1) ∨
    (client.isCounted = true ∧ (client.step server move).isCounted = false ∧
      ∀ count, countAfter client move count = count - 1) ∨
    ((client.step server move).isCounted = client.isCounted ∧
      ∀ count, countAfter client move count = count) := by
  unfold Client.step Client.proceed countAfter
  cases move with
  | proceed timedOut =>
      cases place : client.place with
      | accepted => exact .inl ⟨by simp [Client.isCounted, place], rfl, fun _ => rfl⟩
      | receiving =>
          refine .inr (.inr ⟨?_, fun _ => rfl⟩)
          rw [isCounted_write]
          simp [Client.isCounted, place]
      | checking =>
          refine .inr (.inr ⟨?_, fun _ => rfl⟩)
          simp only
          split_ifs <;> simp [Client.isCounted, place]
      | waiting =>
          have counted : client.isCounted = true := by simp [Client.isCounted, place]
          refine .inr (.inr ⟨?_, fun _ => rfl⟩)
          simp only [counted]
          split_ifs
          · rfl
          · split
            · exact isCounted_write _ _
            · rfl
          · rfl
          · exact counted
      | closing =>
          refine .inr (.inr ⟨?_, fun _ => rfl⟩)
          simp [Client.isCounted, place]
      | leaving => exact .inr (.inl ⟨by simp [Client.isCounted, place], rfl, fun _ => rfl⟩)
      | writing => exact .inr (.inr ⟨rfl, fun _ => rfl⟩)
      | exited => exact .inr (.inr ⟨rfl, fun _ => rfl⟩)
  | sent count =>
      refine .inr (.inr ⟨?_, fun _ => by cases client.place <;> rfl⟩)
      cases place : client.place with
      | writing =>
          have counted : client.isCounted = true := by simp [Client.isCounted, place]
          cases client.pending with
          | nil => rfl
          | cons block blocks =>
              simp only [counted]
              split_ifs
              · exact isCounted_write _ _
              · exact counted
      | _ => rfl
  | failed =>
      refine .inr (.inr ⟨?_, fun _ => by cases client.place <;> rfl⟩)
      cases place : client.place <;> simp [Client.isCounted, place]

theorem countAfter_eq {client : Client} {clients : List Client} {index : Nat}
    (inside : index < clients.length) (isClient : clients[index] = client) (move : Move) :
    countAfter client move (clients.countP Client.isCounted) =
      (clients.set index (client.step server move)).countP Client.isCounted := by
  have present : client.isCounted = true → 0 < clients.countP Client.isCounted := by
    intro isCounted
    exact List.countP_pos_iff.mpr ⟨client, isClient ▸ List.getElem_mem inside, isCounted⟩
  rw [List.countP_set inside, isClient]
  obtain ⟨before, after, counts⟩ | ⟨before, after, counts⟩ | ⟨same, counts⟩ :=
    isCounted_step client server move
  · simp [before, after, counts]
  · simp [before, after, counts]
  · rw [counts, same]
    split_ifs with isCounted
    · exact (Nat.sub_add_cancel (present isCounted)).symm
    · rfl

/-- The counter is that of the browsers being served, and of those besides that have
connected without a request so far or are just leaving. -/
theorem countP_isCounted (clients : List Client) :
    clients.countP Client.isCounted =
      clients.countP Client.isServed + clients.countP Client.awaitsRequest +
        clients.countP Client.isLeaving := by
  induction clients with
  | nil => rfl
  | cons client clients ih =>
      simp only [List.countP_cons, ih]
      cases place : client.place <;>
        simp [Client.isCounted, Client.isServed, Client.awaitsRequest, Client.isLeaving,
          place] <;> omega

theorem Sound.clientStep (sound : Sound cv config past server) (index : Nat) (move : Move) :
    Kept cv config past (clientStep server index move) := by
  unfold MjpegStreamServer.clientStep
  cases found : server.clients[index]? with
  | none => exact sound.idle
  | some client =>
      obtain ⟨inside, isClient⟩ := List.getElem?_eq_some_iff.mp found
      have atIndex := sound.clients client (isClient ▸ List.getElem_mem inside)
      have stepped := atIndex.step sound.jpegs sound.fits move
      obtain ⟨taken, encoding⟩ := sound.encoder
      have moved : Sound cv config past { server with
          clients := server.clients.set index (client.step server move)
          clientCount :=
            countAfter client move server.clientCount } := by
        refine ⟨sound.frames, sound.hasFrame, sound.jpegs,
          ⟨taken, encoding.follows, encoding.results⟩, ?_, ?_⟩
        · intro other among
          rcases List.mem_or_eq_of_mem_set among with before | rfl
          · exact sound.clients other before
          · exact stepped
        · rw [sound.counted]
          exact countAfter_eq inside isClient move
      exact moved.idle

theorem Sound.step (sound : Sound cv config past server) (event : Event Picture) :
    Kept cv config past (step cv config server event) := by
  obtain ⟨taken, encoding⟩ := sound.encoder
  cases event with
  | publish frame overlays => exact sound.publish frame overlays
  | encoder timedOut => exact sound.encoderStep timedOut
  | accept =>
      have moved : Sound cv config past { server with
          clients := server.clients ++ [accepted] } := by
        refine ⟨sound.frames, sound.hasFrame, sound.jpegs,
          ⟨taken, encoding.follows, encoding.results⟩, ?_, ?_⟩
        · intro client among
          rcases List.mem_append.mp among with before | new
          · exact sound.clients client before
          · obtain rfl := List.mem_singleton.mp new
            exact .coming (.inl rfl) rfl rfl
        · rw [sound.counted, List.countP_append]
          rfl
      exact moved.idle
  | client index move => exact sound.clientStep index move
  | stop =>
      have moved : Sound cv config past { server with running := false } :=
        ⟨sound.frames, sound.hasFrame, sound.jpegs,
          ⟨taken, encoding.follows, encoding.results⟩, sound.clients, sound.counted⟩
      exact moved.idle

/-- What happens in a run, and the server after it. -/
def happenings (cv : OpenCv Picture) (config : MjpegServerConfig)
    (events : List (Event Picture)) : List (Happening Picture) :=
  (machine cv config).outputsFrom started events

def serverAfter (cv : OpenCv Picture) (config : MjpegServerConfig)
    (events : List (Event Picture)) : Server Picture :=
  (machine cv config).runFrom started events

theorem sound_run (events : List (Event Picture))
    (countable : (published (happenings cv config events)).length < 2 ^ 64) :
    Sound cv config (happenings cv config events) (serverAfter cv config events) := by
  refine (machine cv config).run_induction
    (fun _ server past => (published past).length < 2 ^ 64 → Sound cv config past server)
    (fun _ => sound_started cv config) ?_ events countable
  intro _ server past event before countable
  have earlier : (published past).length ≤
      (published (past ++ [(step cv config server event).2])).length :=
    ((List.sublist_append_left past _).filterMap _).length_le
  exact (before (lt_of_le_of_lt earlier countable)).step event countable

/-- Nothing is on its way from the last frame to the browser any more. -/
structure AtRest (server : Server Picture) (client : Client) : Prop where
  encoderRests : server.encoder = .checking ∨ server.encoder = .waiting
  noFrame : server.frames.isNew server.lastEncoded = false
  clientRests : client.place = .checking ∨ client.place = .waiting
  noJpeg : server.jpegs.isNew client.lastSent = false

/-- What the browser of a client sees of these frames. -/
structure Shows (cv : OpenCv Picture) (config : MjpegServerConfig)
    (frames : List (Picture × List RoiOverlay)) (server : Server Picture)
    (client : Client) : Prop where
  inOrder : (viewed client.written).Sublist (frames.filterMap (encoded cv config))
  newest : AtRest server client → ∀ jpeg,
    frames.getLast?.bind (encoded cv config) = some jpeg →
      (viewed client.written).getLast? = some jpeg

theorem viewed_nil : viewed [] = [] := by
  rw [viewed]
  rcases found : ([] : List Byte).dropPrefix? kHeader with _ | rest
  · rfl
  · have isPrefix := PartFormat.dropPrefix_eq_some_iff.mp found
    obtain ⟨_, rfl⟩ := List.append_eq_nil_iff.mp isPrefix.symm
    rfl

theorem getLast_filterMap {Frame Jpeg : Type*} {encode : Frame → Option Jpeg}
    {frames : List Frame} {jpeg : Jpeg} (isLast : frames.getLast?.bind encode = some jpeg) :
    (frames.filterMap encode).getLast? = some jpeg := by
  obtain ⟨frame, newest, made⟩ := Option.bind_eq_some_iff.mp isLast
  obtain ⟨earlier, rfl⟩ := List.getLast?_eq_some_iff.mp newest
  simp [made]

theorem Client.Sound.viewed {jpegs : List (List Byte)} {client : Client}
    (sound : client.Sound jpegs) :
    (viewed client.written).Sublist jpegs ∧
      (client.place = .checking ∨ client.place = .waiting →
        Follows jpegs client.lastSent (viewed client.written)) := by
  cases sound with
  | coming place written lastSent =>
      rw [written, viewed_nil]
      exact ⟨List.nil_sublist _, fun _ => lastSent ▸ LatestSlot.follows_nil jpegs⟩
  | serving taken begun follows carries complete =>
      obtain ⟨part, whole⟩ := carries.viewed
      refine ⟨part.trans (follows.inOrder.trans (List.take_sublist _ _)), fun resting => ?_⟩
      rw [whole (complete resting)]
      exact follows

/-- However the producer, the encoder and the browsers interleave, however the
sockets cut the responses into pieces and wherever they fail: what a browser sees
are encodings of published frames in their order, and the newest frame is what it sees
in the end.  The counter counts every browser that is being served, and besides them
the peers that have sent no request yet and the threads at their end. -/
theorem browsers_see_published_frames (cv : OpenCv Picture) (config : MjpegServerConfig)
    (events : List (Event Picture))
    (countable : (published (happenings cv config events)).length < 2 ^ 64) :
    (∀ client ∈ (serverAfter cv config events).clients,
      Shows cv config (published (happenings cv config events))
        (serverAfter cv config events) client) ∧
    (serverAfter cv config events).clientCount =
      (serverAfter cv config events).clients.countP Client.isServed +
        (serverAfter cv config events).clients.countP Client.awaitsRequest +
        (serverAfter cv config events).clients.countP Client.isLeaving := by
  have sound := sound_run events countable
  refine ⟨fun client among => ?_, sound.counted.trans (countP_isCounted _)⟩
  obtain ⟨taken, encoding⟩ := sound.encoder
  obtain ⟨part, follows⟩ := (sound.clients client among).viewed
  constructor
  · have results : (stored (happenings cv config events)).Sublist
        (taken.filterMap (encoded cv config)) := by
      rw [← encoding.results]
      exact List.sublist_append_left _ _
    have inOrder := encoding.follows.inOrder.trans (List.take_sublist _ _)
    exact part.trans (results.trans (inOrder.filterMap _))
  · intro atRest jpeg isLast
    have results := encoding.results
    have nothing : (serverAfter cv config events).encoder.inWork (encoded cv config) = [] := by
      rcases atRest.encoderRests with place | place <;> rw [place] <;> rfl
    rw [nothing, List.append_nil] at results
    have newestTaken := encoding.follows.caughtUp sound.frames atRest.noFrame
    have newestSent := (follows atRest.clientRests).caughtUp sound.jpegs atRest.noJpeg
    rw [newestSent, results]
    rw [← newestTaken] at isLast
    exact getLast_filterMap isLast

/-- Pictures that are encoded as one byte. -/
def oneByteCv : OpenCv Nat where
  cols _ := 640
  rows _ := 360
  draw picture _ := picture
  imencode _ picture := some [BitVec.ofNat 8 picture]
  imencode_size := by
    rintro _ picture jpeg made
    obtain rfl := Option.some.inj made
    exact show 1 < 2 ^ 64 by decide

/-- A browser that gets the first of three pictures and leaves in the third, beside a
peer that sends no request. -/
def leavesInThird : List (Event Nat) :=
  [.accept, .client 0 (.proceed false), .client 0 (.proceed false), .accept,
    .client 1 (.proceed false), .publish 10 [], .encoder false, .encoder false,
    .encoder false, .encoder false, .client 0 (.sent 170), .client 0 (.sent 8),
    .client 0 (.proceed false), .client 0 (.proceed false), .publish 20 [], .publish 30 [],
    .encoder false, .encoder false, .encoder false, .encoder false, .client 0 (.sent 60),
    .client 0 (.sent 1), .client 0 (.sent 2), .client 0 (.proceed false),
    .client 0 (.proceed false), .client 0 (.sent 60), .client 0 (.sent 1),
    .client 0 .failed]

theorem browsers_see_published_frames_leavesInThird :
    (∀ client ∈ (serverAfter oneByteCv {} leavesInThird).clients,
      Shows oneByteCv {} (published (happenings oneByteCv {} leavesInThird))
        (serverAfter oneByteCv {} leavesInThird) client) ∧
    (serverAfter oneByteCv {} leavesInThird).clientCount =
      (serverAfter oneByteCv {} leavesInThird).clients.countP Client.isServed +
        (serverAfter oneByteCv {} leavesInThird).clients.countP Client.awaitsRequest +
        (serverAfter oneByteCv {} leavesInThird).clients.countP Client.isLeaving :=
  browsers_see_published_frames oneByteCv {} leavesInThird (by decide)

end Runs

end Adas.MjpegStreamServer
