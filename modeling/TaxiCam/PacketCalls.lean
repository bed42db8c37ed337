-- The calls of the manager that move capture packets: captures and rewrites,
-- receipts with their tails, and what the worker does with finished frames.
-- src/graphics/scene_capture_manager.cpp.
import TaxiCam.PacketPool
import TaxiCam.Runs

namespace taxi_camera.SceneCaptureManager

open scene
open Function (update)

namespace PacketPool

/-! ## Captures -/

def same_description (a b : SceneCaptureD3D12.Description) : Bool :=
  a.dimension == b.dimension && a.width == b.width && a.height == b.height &&
    a.depth_or_array_size == b.depth_or_array_size && a.mip_levels == b.mip_levels &&
    a.format == b.format && a.sample_count == b.sample_count && a.sample_quality == b.sample_quality

/-- What a capture is asked for, and what it finds. `allocations` answer while packets get their
textures, `natives` while they are recorded; `sight` is for the pass of `collect`, `found` for the
publication. -/
structure Capture where
  published : SceneCopyMatch
  source : Nat
  desc : SceneCaptureD3D12.Description := {}
  render_target : Bool := true
  enhanced_list : Nat := 0
  allow_copy_rewrite : Bool := false
  required_packet : Option Slot := none
  allocations : Slot → SceneCaptureD3D12.Native := fun _ => {}
  natives : Slot → SceneCaptureD3D12.Native := fun _ => {}
  sight : Sight := {}
  found : Option Refusal := none

def single_subresource (desc : SceneCaptureD3D12.Description) : Bool :=
  desc.dimension == .texture2d && desc.mip_levels == 1 && desc.depth_or_array_size == 1 &&
    desc.sample_count == 1 && desc.sample_quality == 0

/-- `record`. -/
def record_into (c : Capture) (list : Nat) (p : Slot) (gpu : SceneCaptureD3D12) :
    SceneCaptureD3D12 × Bool :=
  if c.enhanced_list ≠ 0 then
    gpu.record_render_target_source_enhanced c.enhanced_list c.source true (c.natives p)
  else if c.render_target then gpu.record_render_target_source list c.source true (c.natives p)
  else gpu.record_copy_source list c.source c.allow_copy_rewrite (c.natives p)

/-- The packet of the recording still holds the only recording of the identity. -/
def rewritable (packet : Packet) (published : SceneCopyMatch) : Bool :=
  packet.assigned && !packet.retired && !packet.quarantined && !packet.leased &&
    packet.submitted == 0 && packet.in_flight == 0 &&
    packet.published.scene_epoch == published.scene_epoch &&
    packet.published.manager == published.manager &&
    packet.published.entry_id == published.entry_id &&
    packet.published.resource == published.resource

def rewrite (s : PacketPool) (c : Capture) (item : CommandList) : PacketPool × Bool :=
  if !c.render_target && !c.allow_copy_rewrite then (s, false)
  else
    match slots.find? fun p =>
        item.packets p && (s.packets p).published.feed == c.published.feed with
    | none => (s, false)
    | some p =>
      let packet := s.packets p
      if !rewritable packet c.published then (s, false)
      else
        let answer := record_into c item.native p packet.gpu
        if answer.2 then
          ((s.set_packet p { packet with gpu := answer.1, published := c.published }).note
            (.rewritten packet.token p), true)
        else (s, false)

/-- `reuse_order`: fitting idle packets first, then empty ones, then the rest. -/
def reuse_rank (s : PacketPool) (device_key : Nat) (desc : SceneCaptureD3D12.Description)
    (p : Slot) : Nat :=
  let packet := s.packets p
  if packet.gpu.state == .idle && packet.device_key == device_key &&
      same_description packet.description desc then 0
  else if packet.gpu.state = .empty then 1 else 2

def reuse_order (s : PacketPool) (device_key : Nat) (desc : SceneCaptureD3D12.Description) :
    List Slot :=
  (List.range 3).flatMap fun rank => slots.filter fun p => s.reuse_rank device_key desc p == rank

/-- An idle packet of another device or shape is emptied. -/
def release_other (s : PacketPool) (device_key : Nat) (desc : SceneCaptureD3D12.Description)
    (p : Slot) : PacketPool :=
  let packet := s.packets p
  if packet.gpu.state = .idle ∧
      (packet.device_key ≠ device_key ∨ same_description packet.description desc = false) then
    { s.set_packet p { packet with gpu := packet.gpu.release_idle.1 } with
      bytes := s.bytes - packet.gpu.allocation_bytes }
  else s

/-- An empty packet gets a texture, where the budget admits one. -/
def allocate (s : PacketPool) (device_key device : Nat) (desc : SceneCaptureD3D12.Description)
    (native : SceneCaptureD3D12.Native) (p : Slot) : PacketPool × Bool :=
  let packet := s.packets p
  if packet.gpu.state ≠ .empty then (s, true)
  else if native.allocation = 0 ∨ MaximumBytes - s.bytes < native.allocation then (s, false)
  else
    let answer := packet.gpu.initialize_packet device desc native
    if answer.2 then
      ({ s.set_packet p { packet with gpu := answer.1, description := desc, device_key } with
        bytes := s.bytes + answer.1.allocation_bytes }, true)
    else (s.set_packet p { packet with gpu := answer.1 }, false)

/-- The packet is the recording's. -/
def assign (s : PacketPool) (c : Capture) (r : Recording) (session_generation : Nat)
    (gpu : SceneCaptureD3D12) (p : Slot) : PacketPool :=
  let token := s.next_token + 1
  let taken := { s.set_packet p
    { s.packets p with
      gpu, published := c.published, token, session_generation, submitted := 0, order := {}
      producer := 0, in_flight := 0, assigned := true, retired := false, leased := false } with
    next_token := token }
  let listed :=
    match taken.lists r with
    | some item => taken.set_list r
        { item with
          packets := update item.packets p true
          feeds := update item.feeds c.published.feed true }
    | none => taken
  listed.note (.captured token p)

/-- The loop of `capture_source` over the packets. -/
def capture_into (c : Capture) (r : Recording) (key : Nat) (owner : PacketPool.Device)
    (list : Nat) : List Slot → PacketPool → PacketPool × Bool
  | [], s => (s, false)
  | p :: rest, s =>
    if c.required_packet.any (· ≠ p) || (s.packets p).assigned || (s.packets p).quarantined then
      capture_into c r key owner list rest s
    else if MaximumCounter ≤ s.next_token then (s, false)
    else
      match (s.release_other key c.desc p).allocate key owner.native c.desc (c.allocations p) p with
      | (provided, false) => capture_into c r key owner list rest provided
      | (provided, true) =>
        let answer := record_into c list p (provided.packets p).gpu
        if answer.2 then
          let taken := provided.assign c r owner.session_generation answer.1 p
          (match r with
            | .listed _ => taken.publish_list c.found
            | .private_recording => taken, true)
        else capture_into c r key owner list rest provided

def capture_source (s : PacketPool) (c : Capture) (r : Recording) : PacketPool × Bool :=
  match s.lists r with
  | none => (s, false)
  | some item =>
    match s.devices item.device_key with
    | none => (s, false)
    | some owner =>
      if !s.capture_enabled || !owner.session_active ||
          item.session_generation != owner.session_generation || !single_subresource c.desc then
        (s, false)
      else if item.feeds c.published.feed then s.rewrite c item
      else if c.render_target &&
          (!c.desc.allow_render_target || c.desc.allow_simultaneous_access) then (s, false)
      else
        let collected := s.collect c.sight
        match collected.devices item.device_key with
        | none => (collected, false)
        | some owner =>
          if !owner.active || owner.failed then (collected, false)
          else
            let list := (collected.lists r).elim 0 CommandList.native
            capture_into c r item.device_key owner list
              (collected.reuse_order item.device_key c.desc) collected

/-- The list of a callback, on a device that is in use. -/
def observed_list (s : PacketPool) (native generation : Nat) : Bool :=
  match s.lists (.listed native) with
  | none => false
  | some item =>
    match s.devices item.device_key with
    | none => false
    | some owner => owner.active && !owner.failed && item.object_generation == generation

/-- `record_render_target_before_transition`, and the enhanced one where `c.enhanced_list` is the
list. -/
def record_render_target_before_transition (s : PacketPool) (native generation : Nat)
    (work : List Entry) (c : Capture) : PacketPool × Bool :=
  let locked := s.apply_deferred_work work
  if !locked.observed_list native generation || !c.published.matched ||
      decide (2 < c.published.feed) then (locked, false)
  else locked.capture_source { c with render_target := true, allow_copy_rewrite := false
                                      required_packet := none } (.listed native)

/-- `record_copy`. A copy that was observed natively names its list by a generation; `same` says
that source and destination have the same description. -/
def record_copy (s : PacketPool) (native : Nat) (generation : Option Nat) (work : List Entry)
    (matches_ : SceneCopyObservation) (same : Bool) (c : Capture) : PacketPool × Bool :=
  let locked := s.apply_deferred_work work
  match locked.lists (.listed native) with
  | none => (locked, false)
  | some item =>
    let published := if matches_.source.matched then matches_.source else matches_.destination
    if !locked.observed_list native (generation.getD item.object_generation) ||
        (matches_.source.matched && matches_.destination.matched &&
          matches_.source.feed != matches_.destination.feed) ||
        !published.matched || decide (2 < published.feed) || !same ||
        (generation.isNone && item.feeds published.feed) then (locked, false)
    else
      locked.capture_source
        { c with
          published, render_target := false, enhanced_list := 0, required_packet := none
          allow_copy_rewrite := generation.isSome } (.listed native)

/-! ## Receipts -/

/-- The lists of a batch, added up. -/
structure Batch where
  owner : Option Nat := none
  mask : Slot → Bool := fun _ => false
  consumer : Bool := false
  source_work : Bool := false
  unknown_lists : Bool := false

def owned (item : CommandList) : Bool := slots.any item.packets

/-- A batch over two devices fails both. -/
def read_lists (s : PacketPool) : List Nat → Batch → Except (List Nat) Batch
  | [], batch => .ok batch
  | native :: rest, batch =>
    match s.lists (.listed native) with
    | none => read_lists s rest { batch with unknown_lists := true }
    | some item =>
      if item.awaiting_native_reset then read_lists s rest { batch with unknown_lists := true }
      else if !owned item && !item.consumer && !item.source_touched then read_lists s rest batch
      else
        match s.devices item.device_key with
        | none => .error batch.owner.toList
        | some current =>
          if batch.owner.any (· ≠ item.device_key) then
            .error (batch.owner.toList ++ [item.device_key])
          else
            read_lists s rest
              { owner := some item.device_key
                mask := fun p => batch.mask p || item.packets p
                consumer := batch.consumer || item.consumer
                source_work := batch.source_work || item.source_touched
                unknown_lists := batch.unknown_lists || (item.source_touched &&
                  item.session_generation != current.session_generation) }

/-- `compatible` says that the queue is one of the device. -/
def begin_transaction (s : PacketPool) (key queue : Nat) (packets : Slot → Bool)
    (private_work compatible : Bool) (drained : Drained) : PacketPool × Bool :=
  let s := s.apply_deferred drained
  match s.devices key with
  | none => (s, false)
  | some owner =>
    if !owner.active || owner.failed || !compatible || decide (MaximumCounter ≤ s.next_receipt) ||
        decide (MaximumCounter ≤ owner.last_signal) then (s.fail_device key, false)
    else
      let id := s.next_receipt + 1
      ({ s with
        next_receipt := id
        transaction := some
          { id, device := key, queue, value := owner.last_signal + 1, packets, private_work
            session_generation := owner.session_generation }
        packets := fun p =>
          if packets p then { s.packets p with in_flight := (s.packets p).in_flight + 1 }
          else s.packets p
        history := s.history ++
          ((slots.filter packets).map fun p => .contained id (s.packets p).token) }, true)

/-- The last list of the batch that carries the packet. -/
def packet_position (s : PacketPool) (natives : List Nat) (p : Slot) : Nat :=
  (natives.zipIdx.filter fun (native, _) =>
    match s.lists (.listed native) with
    | some item => !item.awaiting_native_reset && item.packets p
    | none => false).getLast?.elim 0 fun (_, index) => index + 1

/-- What a submission finds. `display_device` is the device of a current display plan, and
`cross_queue_unfinished` says that the last simulator receipt is another queue's and is not
reached. -/
structure Submitting where
  drained : Drained := {}
  display_device : Option Nat := none
  cross_queue_unfinished : Bool := false
  compatible : Bool := true
  reserved : Drained := {}

def kMaximumCommandLists : Nat := 256

/-- From the second `apply_deferred` on, with both mutexes. A batch without a receipt is forwarded
as it is. -/
def before_submission (s : PacketPool) (queue : Nat) (natives : List Nat) (found : Submitting) :
    PacketPool :=
  if s.transaction.isSome || natives.isEmpty || decide (kMaximumCommandLists < natives.length) then s
  else
    let s := s.apply_deferred found.drained
    let owner := found.display_device.filter fun key => (s.devices key).isSome
    match s.read_lists natives { owner, consumer := owner.isSome } with
    | .error keys => keys.foldl fail_device s
    | .ok batch =>
      match batch.owner with
      | none => s
      | some key =>
        let mask := slots.any batch.mask
        if (!mask && !batch.consumer && !batch.source_work) ||
            (found.cross_queue_unfinished && !mask) then s
        else
          let (begun, receipt) :=
            s.begin_transaction key queue batch.mask false found.compatible found.reserved
          if receipt then
            { begun with
              transaction := begun.transaction.map fun t =>
                { t with
                  source_work := batch.source_work, last_position := natives.length
                  packet_positions := fun p => begun.packet_position natives p } }
          else begun

def begin_private_submission (s : PacketPool) (key queue : Nat) (compatible : Bool)
    (drained : Drained) : PacketPool :=
  if s.transaction.isSome then s
  else
    match s.devices key with
    | none => s
    | some owner =>
      if !owner.session_active then s
      else (s.begin_transaction key queue (fun _ => false) true compatible drained).1

/-- `--packet.in_flight` for the packets of the receipt, which is over. -/
def end_receipt (s : PacketPool) (t : PacketPool.Transaction) (settled : Slot → Packet → Packet) :
    PacketPool :=
  { s with
    packets := fun p =>
      if t.packets p then
        settled p { s.packets p with in_flight := (s.packets p).in_flight - 1 }
      else s.packets p
    transaction := none
    history := s.history ++ [.closed t.id] }

/-- `succeeded` is the answer of the Wait, where there is a receipt to wait for. -/
def queue_transaction_wait (s : PacketPool) (succeeded : Bool) (drained : Drained) : PacketPool :=
  match s.transaction with
  | none => s
  | some t =>
    if t.stage ≠ .waiting then s
    else if succeeded || (s.devices t.device).all (fun owner => owner.last_signal == 0) then
      { s with transaction := some { t with stage := .forwarding } }
    else ((s.apply_deferred drained).fail_device t.device).end_receipt t fun _ packet => packet

/-! ### Tails -/

/-- A source of the batch that is due for a capture at its end. `prepared` are the private lists of
the packets, and their enhanced interfaces, where `prepare_tail` has them ready; `captures` is what
`capture_source` finds for each packet, and `closes` the answer of `Close`. -/
structure Tail where
  published : SceneCopyMatch
  source : Nat
  desc : SceneCaptureD3D12.Description := {}
  enhanced : Bool := false
  prepared : Slot → Option (Nat × Nat) := fun _ => none
  allocations : Slot → Slot → SceneCaptureD3D12.Native := fun _ _ => {}
  natives : Slot → Slot → SceneCaptureD3D12.Native := fun _ _ => {}
  sights : Slot → Sight := fun _ => {}
  closes : Slot → Bool := fun _ => true

/-- What the private list of a packet asks `capture_source` for. -/
def tail_capture (tail : Tail) (p : Slot) (list7 : Nat) : Capture :=
  { published := tail.published, source := tail.source, desc := tail.desc
    enhanced_list := if tail.enhanced then list7 else 0, required_packet := some p
    allocations := tail.allocations p, natives := tail.natives p, sight := tail.sights p }

/-- The private list of a packet records the source into the packet. -/
def capture_tail (s : PacketPool) (t : PacketPool.Transaction) (tail : Tail) (p : Slot)
    (list list7 : Nat) : PacketPool × Bool :=
  if tail.enhanced && list7 == 0 then (s, false)
  else
    let answer :=
      (s.set_list .private_recording
        { native := list, device_key := t.device
          session_generation := t.session_generation }).capture_source
        (tail_capture tail p list7) .private_recording
    ({ answer.1 with lists := update answer.1.lists .private_recording none }, answer.2)

/-- The recording of the packet is part of the receipt. -/
def join_receipt (s : PacketPool) (t : PacketPool.Transaction) (p : Slot) (list : Nat) :
    PacketPool × PacketPool.Transaction :=
  let packet := s.packets p
  let t :=
    { t with
      packets := update t.packets p true
      last_position := t.last_position + 1
      packet_positions := update t.packet_positions p (t.last_position + 1)
      tails := t.tails ++ [list] }
  ({ s.set_packet p { packet with in_flight := packet.in_flight + 1 } with
    transaction := some t, history := s.history ++ [.contained t.id packet.token] }, t)

/-- The loop over the packets for one source: the first that records is submitted. -/
def tail_into (tail : Tail) (t : PacketPool.Transaction) :
    List Slot → PacketPool → PacketPool × PacketPool.Transaction × Bool
  | [], s => (s, t, false)
  | p :: rest, s =>
    if (s.packets p).assigned || (s.packets p).quarantined then tail_into tail t rest s
    else
      match tail.prepared p with
      | none => tail_into tail t rest s
      | some (list, list7) =>
        match s.capture_tail t tail p list list7 with
        | (captured, false) => tail_into tail t rest captured
        | (captured, true) =>
          let packet := captured.packets p
          let retired :=
            (captured.set_packet p { packet with retired := true }).note (.retired packet.token)
          if tail.closes p then
            let (joined, t) := retired.join_receipt t p list
            (joined, t, true)
          else (retired.quarantine p, t, false)

/-- `feeds` are the feeds that have a tail already. -/
def record_tails : List Tail → (Nat → Bool) → PacketPool.Transaction → PacketPool → PacketPool
  | [], _, _, s => s
  | tail :: rest, feeds, t, s =>
    if !tail.published.matched || decide (TailFeeds ≤ tail.published.feed) ||
        feeds tail.published.feed || decide (TailFeeds ≤ t.tails.length) then
      record_tails rest feeds t s
    else
      let (after, t, captured) := tail_into tail t (s.reuse_order t.device tail.desc) s
      record_tails rest
        (if captured then update feeds tail.published.feed true else feeds) t after

/-- `operational` is the answer of the observer of render boundaries. -/
def record_queue_tail (s : PacketPool) (t : PacketPool.Transaction) (operational : Bool)
    (sight : Sight) (tails : List Tail) : PacketPool :=
  match s.devices t.device with
  | none => s
  | some owner =>
    if !owner.active || owner.failed || !owner.session_active ||
        t.session_generation != owner.session_generation || !operational then s
    else record_tails tails (fun _ => false) t (s.collect sight)

def device_failed (s : PacketPool) (key : Nat) : Bool :=
  match s.devices key with
  | some owner => owner.failed
  | none => false

/-- What the first half of `finish_transaction` finds. -/
structure Finishing where
  drained : Drained := {}
  source_tracking : Bool := true
  operational : Bool := true
  sight : Sight := {}
  tails : List Tail := []

/-- `finish_transaction` until it releases the mutex for its queue calls. -/
def begin_finish (s : PacketPool) (refused : Bool) (found : Finishing) : PacketPool :=
  match s.transaction with
  | none => s
  | some t =>
    if t.stage ≠ .forwarding then s
    else
      let s := s.apply_deferred found.drained
      let refused := refused || s.device_failed t.device
      let s :=
        if !refused && t.source_work && found.source_tracking && s.capture_enabled then
          s.record_queue_tail t found.operational found.sight found.tails
        else s
      { s with transaction := s.transaction.map fun t => { t with stage := .signalling refused } }

/-- `finish_transaction` after its Signal; `success` is the answer of that. The packets of a receipt
that failed or was refused are quarantined once all of its packets are back. -/
def finish_transaction (s : PacketPool) (success fatal : Bool) (drained : Drained) (sight : Sight) :
    PacketPool :=
  match s.transaction with
  | none => s
  | some t =>
    match t.stage with
    | .signalling refused =>
      let s := s.apply_deferred drained
      let refused := refused || s.device_failed t.device
      let signalled :=
        match s.devices t.device with
        | some owner => if success then s.set_device t.device { owner with last_signal := t.value } else s
        | none => s
      let failed :=
        if !success || (refused && fatal) then signalled.fail_device t.device else signalled
      let ended := failed.end_receipt t fun p packet =>
        if success && !refused then
          { packet with
            producer := t.queue, order := ⟨t.value, t.packet_positions p⟩
            submitted := packet.submitted + 1 }
        else packet
      let settled :=
        if success && !refused then ended else ended.quarantine_where fun _ p => t.packets p
      settled.collect sight
    | _ => s

/-! ## The worker -/

structure Frame where
  token : Nat
  device_key : Nat
  published : SceneCopyMatch
  resource : Nat
  order : FrameOrder
  session_generation : Nat
deriving DecidableEq

/-- What a poll finds: `is_current` of the handoff, and the answers for `poll_ready` and for what
is done with a packet that is ready. -/
structure Polling where
  sight : Sight := {}
  natives : Slot → SceneCaptureD3D12.Native := fun _ => {}
  ready : Slot → SceneCaptureD3D12.Native := fun _ => {}
  is_current : SceneCopyMatch → Bool := fun _ => true

/-- `poll_ready` of a packet, which reads the fence of its producer while that is not reached. -/
def poll_packet (s : PacketPool) (native : SceneCaptureD3D12.Native) (p : Slot) :
    PacketPool × Bool :=
  let packet := s.packets p
  let answer := packet.gpu.poll_ready native
  if packet.gpu.state = .retiring ∧ native.device_ok = true then
    ((s.set_packet p { packet with gpu := answer.1 }).note
      (.producer_read packet.token packet.gpu.producer_value native.completed), answer.2)
  else (s, answer.2)

/-- A frame that nobody has seen is consumed at the timeline's last value. -/
def drop_frame (s : PacketPool) (owner : PacketPool.Device) (native : SceneCaptureD3D12.Native)
    (p : Slot) : PacketPool :=
  let packet := s.packets p
  let answer := packet.gpu.finish_consumption owner.timeline owner.last_signal native
  if answer.2 then
    (s.set_packet p { packet with gpu := answer.1 }).note
      (.consumed p owner.timeline owner.last_signal)
  else s.quarantine p

/-- The loop of `poll_completed_frames`; `left` is the capacity that is left. -/
def poll_frames (found : Polling) : List Slot → Nat → PacketPool → PacketPool × List Frame
  | [], _, s => (s, [])
  | p :: rest, left, s =>
    let packet := s.packets p
    if !packet.assigned || packet.quarantined || packet.leased then poll_frames found rest left s
    else
      match s.poll_packet (found.natives p) p with
      | (polled, false) => poll_frames found rest left polled
      | (polled, true) =>
        match polled.devices packet.device_key with
        | none => poll_frames found rest left (polled.quarantine p)
        | some owner =>
          if !owner.active || owner.failed then poll_frames found rest left (polled.quarantine p)
          else if !owner.session_active || packet.session_generation != owner.session_generation ||
              !found.is_current packet.published then
            poll_frames found rest left (polled.drop_frame owner (found.ready p) p)
          else
            match left with
            | 0 => (polled, [])
            | left + 1 =>
              let ready := polled.packets p
              let frame : Frame :=
                { token := ready.token, device_key := ready.device_key
                  published := ready.published
                  resource := ready.gpu.ready_resource (found.ready p)
                  order := ready.order, session_generation := ready.session_generation }
              let (after, frames) := poll_frames found rest left
                ((polled.set_packet p { ready with leased := true }).note
                  (.returned ready.token p))
              (after, frame :: frames)

def poll_completed_frames (s : PacketPool) (capacity : Nat) (found : Polling) :
    PacketPool × List Frame :=
  if capacity = 0 then (s, [])
  else poll_frames found slots (min capacity MaximumPackets) (s.collect found.sight)

/-- The packet that is out under a token. -/
def leased_packet (s : PacketPool) (token : Nat) : Option Slot :=
  slots.find? fun p =>
    (s.packets p).assigned && (s.packets p).leased && !(s.packets p).quarantined &&
      (s.packets p).token == token

/-- The reads of a returned frame end at a value of a fence. -/
def consume_packet (s : PacketPool) (p : Slot) (fence value : Nat)
    (native : SceneCaptureD3D12.Native) : PacketPool × Bool :=
  let packet := s.packets p
  let answer := packet.gpu.finish_consumption fence value native
  if answer.2 then
    ((s.set_packet p { packet with gpu := answer.1, leased := false }).note
      (.consumed p fence value), true)
  else (s, false)

def finish_consumption (s : PacketPool) (token fence value : Nat)
    (native : SceneCaptureD3D12.Native) : PacketPool × Bool :=
  match s.leased_packet token with
  | some p => s.consume_packet p fence value native
  | none => (s, false)

def discard_frame (s : PacketPool) (token : Nat) (native : SceneCaptureD3D12.Native) :
    PacketPool × Bool :=
  match s.leased_packet token with
  | some p =>
    match s.devices (s.packets p).device_key with
    | some owner => s.consume_packet p owner.timeline owner.last_signal native
    | none => (s, false)
  | none => (s, false)

/-! ## Devices, sessions and lists -/

def register_device (s : PacketPool) (key native timeline : Nat) : PacketPool :=
  match s.devices key with
  | some _ => s
  | none => if key = 0 ∨ native = 0 then s else s.set_device key { native, timeline }

def destroy_device (s : PacketPool) (key : Nat) : PacketPool :=
  match s.devices key with
  | some owner => (s.set_device key { owner with active := false }).fail_device key
  | none => s

def reset_session (s : PacketPool) (key : Nat) : PacketPool :=
  match s.devices key with
  | none => s
  | some owner =>
    if !owner.active then s
    else
      let stopped := s.set_device key { owner with session_active := false }
      if MaximumCounter ≤ owner.session_generation then stopped.fail_device key
      else
        s.set_device key
          { owner with
            session_active := false, session_generation := owner.session_generation + 1 }

def resume_session (s : PacketPool) (key generation : Nat) : PacketPool :=
  match s.devices key with
  | none => s
  | some owner =>
    if !owner.active || owner.failed || generation == 0 || owner.session_generation != generation
    then s
    else s.set_device key { owner with session_active := true }

/-- `retired` is what the retirement of an older list at the same address finds; `room` says that
a place is free. -/
def register_list (s : PacketPool) (native key generation : Nat) (observed room : Bool)
    (work : List Entry) (retired : Drained) (found published : Option Refusal) : PacketPool :=
  let s := s.apply_deferred_work work
  match s.devices key with
  | none => s
  | some owner =>
    if native == 0 || generation == 0 || !owner.active || owner.failed then s
    else
      let enter := fun s : PacketPool =>
        (s.set_list (.listed native)
          { native, device_key := key, object_generation := generation
            session_generation := owner.session_generation
            awaiting_native_reset := !observed }).publish_list published
      match s.lists (.listed native) with
      | none => if room then enter s else s
      | some existing =>
        if existing.object_generation = generation then s
        else enter (s.retire_native_list native true retired found)

/-- The locked path of `successful_reset`. -/
def successful_reset (s : PacketPool) (native generation : Nat) (work : List Entry)
    (drained : Drained) (found : Option Refusal) (sight : Sight) : PacketPool :=
  let s := s.apply_deferred_work work
  match s.lists (.listed native) with
  | none => s
  | some item =>
    if item.object_generation ≠ generation then s
    else
      let retired := s.retire_native_list native false drained found
      if owned item then retired.collect sight else retired

def destroy_command_list (s : PacketPool) (native generation : Nat) (work : List Entry)
    (drained : Drained) (found : Option Refusal) (sight : Sight) : PacketPool :=
  let s := s.apply_deferred_work work
  match s.lists (.listed native) with
  | none => s
  | some item =>
    if item.object_generation ≠ generation then s
    else (s.retire_native_list native true drained found).collect sight

/-- A draw, a barrier or a report touches the sources of its list. -/
def touch_sources (s : PacketPool) (native : Nat) (work : List Entry) (found : Option Refusal) :
    PacketPool :=
  let s := s.apply_deferred_work work
  match s.lists (.listed native) with
  | none => s
  | some item =>
    if item.source_touched then s
    else (s.set_list (.listed native) { item with source_touched := true }).publish_list found

def register_consumer_recording (s : PacketPool) (native : Nat) (work : List Entry)
    (found : Option Refusal) : PacketPool :=
  let s := s.apply_deferred_work work
  match s.lists (.listed native) with
  | none => s
  | some item =>
    match s.devices item.device_key with
    | none => s
    | some owner =>
      if !owner.active || owner.failed || !owner.session_active ||
          item.session_generation != owner.session_generation then s
      else (s.set_list (.listed native) { item with consumer := true }).publish_list found

/-! ## Runs -/

/-- The calls of all threads, in the order in which they take the mutex. What a call finds is a part
of it: the answers of the native objects, and the work and notices that other threads left without
the lock. -/
inductive Call
  | apply_deferred (drained : Drained)
  | register_device (key native timeline : Nat)
  | destroy_device (key : Nat)
  | set_capture_enabled (enabled : Bool)
  | reset_session (key : Nat)
  | resume_session (key generation : Nat)
  | register_list (native key generation : Nat) (observed room : Bool) (work : List Entry)
      (retired : Drained) (found published : Option Refusal)
  | successful_reset (native generation : Nat) (work : List Entry) (drained : Drained)
      (found : Option Refusal) (sight : Sight)
  | destroy_command_list (native generation : Nat) (work : List Entry) (drained : Drained)
      (found : Option Refusal) (sight : Sight)
  | touch_sources (native : Nat) (work : List Entry) (found : Option Refusal)
  | register_consumer_recording (native : Nat) (work : List Entry) (found : Option Refusal)
  | record_render_target_before_transition (native generation : Nat) (work : List Entry)
      (capture : Capture)
  | record_copy (native : Nat) (generation : Option Nat) (work : List Entry)
      (matches_ : SceneCopyObservation) (same : Bool) (capture : Capture)
  | before_submission (queue : Nat) (natives : List Nat) (found : Submitting)
  | begin_private_submission (key queue : Nat) (compatible : Bool) (drained : Drained)
  | queue_transaction_wait (succeeded : Bool) (drained : Drained)
  | begin_finish (refused : Bool) (found : Finishing)
  | finish_transaction (success fatal : Bool) (drained : Drained) (sight : Sight)
  | collect (sight : Sight)
  | poll_completed_frames (capacity : Nat) (found : Polling)
  | finish_consumption (token fence value : Nat) (native : SceneCaptureD3D12.Native)
  | discard_frame (token : Nat) (native : SceneCaptureD3D12.Native)

def step (s : PacketPool) : Call → PacketPool
  | .apply_deferred drained => s.apply_deferred drained
  | .register_device key native timeline => s.register_device key native timeline
  | .destroy_device key => s.destroy_device key
  | .set_capture_enabled enabled => { s with capture_enabled := enabled }
  | .reset_session key => s.reset_session key
  | .resume_session key generation => s.resume_session key generation
  | .register_list native key generation observed room work retired found published =>
    s.register_list native key generation observed room work retired found published
  | .successful_reset native generation work drained found sight =>
    s.successful_reset native generation work drained found sight
  | .destroy_command_list native generation work drained found sight =>
    s.destroy_command_list native generation work drained found sight
  | .touch_sources native work found => s.touch_sources native work found
  | .register_consumer_recording native work found => s.register_consumer_recording native work found
  | .record_render_target_before_transition native generation work capture =>
    (s.record_render_target_before_transition native generation work capture).1
  | .record_copy native generation work matches_ same capture =>
    (s.record_copy native generation work matches_ same capture).1
  | .before_submission queue natives found => s.before_submission queue natives found
  | .begin_private_submission key queue compatible drained =>
    s.begin_private_submission key queue compatible drained
  | .queue_transaction_wait succeeded drained => s.queue_transaction_wait succeeded drained
  | .begin_finish refused found => s.begin_finish refused found
  | .finish_transaction success fatal drained sight =>
    s.finish_transaction success fatal drained sight
  | .collect sight => s.collect sight
  | .poll_completed_frames capacity found => (s.poll_completed_frames capacity found).1
  | .finish_consumption token fence value native =>
    (s.finish_consumption token fence value native).1
  | .discard_frame token native => (s.discard_frame token native).1

end PacketPool

end taxi_camera.SceneCaptureManager
