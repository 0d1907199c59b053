import WordFifo.Proofs.Intake
import WordFifo.Proofs.RoundTrip
import WordFifo.Router

/-!
# Messages sorted by channel

A router is asked to register a consumer, to take one away, to hand one out, and
to find the one that a header word goes to.  A consumer that was handed out may
be changed where it is.

Every operation is about one entry at most (`Operation.target`).  It answers with
what this entry held and writes no other (`consumer_perform`).  So 16 entries
stand side by side, and each is what the operations about its own channel made of
it (`consumer_run`).

A header goes where its message belongs (`Frame.route_header`).  Words of every
kind have a channel field, those of special commands too, so encoder, router and
reader have to agree on which of them count.  They do, and the queues of a router
then sort a stream of messages by channel (`Demultiplexed`).
-/

namespace WordFifo

/-! ## Where a header goes -/

theorem Header.route_ofWord (w : UInt32) :
    (Header.ofWord w).route = if Word.isSpecial w then none else some (Channel.ofWord w) := by
  simp only [Header.route, Header.ofWord, Kind.ofWord]
  by_cases hs : Word.isSpecial w
  · simp only [if_pos hs]
  · simp only [if_neg hs]
    by_cases ha : Word.isAddress w
    · simp only [if_pos ha]
    · simp only [if_neg ha]
      by_cases hi : Word.isImmediate w
      · by_cases he : Word.hasExtraBit w <;> simp [hi, he]
      · simp only [if_neg hi]

theorem Message.channel_received (m : Message) : m.received.channel = m.channel := by
  cases m <;> rfl

/-- The header of an encoded message goes to the channel of the message. -/
theorem Frame.route_header (f : Frame) :
    (Header.ofWord f.encoded.header).route = f.message.channel := by
  rw [← Message.channel_ofWords f.encoded.header f.encoded.extra, f.packed.ofWords_eq,
    Message.channel_received]

namespace Router

variable {α : Type}

/-- What can be asked of a router.  What is handed out is changed by a function. -/
inductive Operation (α : Type) where
  | register (channel : Channel) (consumer : α)
  | unregister (channel : Channel)
  | get (channel : Channel) (change : α → α)
  | route (header : UInt32) (change : α → α)

/-- One operation.  The answer is the consumer that it replaces, takes away or hands out. -/
def perform (r : Router α) : Operation α → Option α × Router α
  | .register c a => r.register c a
  | .unregister c => r.unregister c
  | .get c f => (r.consumer c, r.modify c f)
  | .route w f => ((r.route w).map Prod.snd, r.deliver w f)

/-- The router after some operations. -/
def run (r : Router α) (ops : List (Operation α)) : Router α :=
  ops.foldl (fun r op => (r.perform op).2) r

namespace Operation

/-- The channel whose entry an operation is about. -/
def target : Operation α → Option Channel
  | .register c _ => some c
  | .unregister c => some c
  | .get c _ => some c
  | .route w _ => (Header.ofWord w).route

/-- What an operation makes of this entry. -/
def write : Operation α → Option α → Option α
  | .register _ a, _ => some a
  | .unregister _, _ => none
  | .get _ f, entry => entry.map f
  | .route _ f, entry => entry.map f

/-- What operations make of the entry of a channel.  Only those about it count. -/
def writeAll (c : Channel) (ops : List (Operation α)) (entry : Option α) : Option α :=
  (ops.filter fun op => op.target = some c).foldl (fun entry op => op.write entry) entry

theorem writeAll_cons (c : Channel) (op : Operation α) (ops : List (Operation α))
    (entry : Option α) :
    writeAll c (op :: ops) entry =
      writeAll c ops (if op.target = some c then op.write entry else entry) := by
  rw [writeAll, List.filter_cons]
  by_cases hc : op.target = some c
  · simp [hc, writeAll]
  · simp [hc, writeAll]

end Operation

/-! ## One operation -/

theorem route_eq (r : Router α) (w : UInt32) :
    (r.route w).map Prod.snd = (Header.ofWord w).route.bind r.consumer := by
  rw [route, Header.route_ofWord]
  by_cases hs : Word.isSpecial w
  · simp [hs]
  · simp [hs, Function.comp_def]

theorem consumer_modify (r : Router α) (c c' : Channel) (f : α → α) :
    (r.modify c f).consumer c' = if c' = c then (r.consumer c').map f else r.consumer c' := by
  rw [modify, consumer_set]
  split
  · next h => rw [h]
  · rfl

theorem consumer_deliver (r : Router α) (w : UInt32) (f : α → α) (c : Channel) :
    (r.deliver w f).consumer c =
      if (Header.ofWord w).route = some c then (r.consumer c).map f else r.consumer c := by
  rw [deliver, Header.route_ofWord]
  by_cases hs : Word.isSpecial w
  · simp [hs]
  · simp [hs, consumer_modify, eq_comm]

theorem answer_perform (r : Router α) (op : Operation α) :
    (r.perform op).1 = op.target.bind r.consumer := by
  cases op with
  | register c a => rfl
  | unregister c => rfl
  | get c f => rfl
  | route w f => exact r.route_eq w

/-- An operation writes the entry that it is about and no other. -/
theorem consumer_perform (r : Router α) (op : Operation α) (c : Channel) :
    (r.perform op).2.consumer c =
      if op.target = some c then op.write (r.consumer c) else r.consumer c := by
  cases op with
  | register c' a => simp [perform, register, Operation.target, Operation.write, eq_comm]
  | unregister c' => simp [perform, unregister, Operation.target, Operation.write, eq_comm]
  | get c' f => simp [perform, consumer_modify, Operation.target, Operation.write, eq_comm]
  | route w f => exact r.consumer_deliver w f c

/-! ## Runs -/

/-- The entries do not know of each other. -/
theorem consumer_run (r : Router α) (ops : List (Operation α)) (c : Channel) :
    (r.run ops).consumer c = Operation.writeAll c ops (r.consumer c) := by
  induction ops generalizing r with
  | nil => rfl
  | cons op ops ih =>
      rw [run, List.foldl_cons, ← run, ih, consumer_perform, Operation.writeAll_cons]

theorem pairwise_channels (r : Router α) : r.channels.Pairwise (· < ·) :=
  (List.pairwise_lt_finRange Layout.channelCount).filter _

/-- What can be seen of a router after some operations on it. -/
structure Tabulates (r : Router α) (ops : List (Operation α)) : Prop where
  /-- The entry of a channel is what the operations about this channel made of it. -/
  entry : ∀ c, (r.run ops).consumer c = Operation.writeAll c ops (r.consumer c)
  /-- The next operation answers with the entry that it is about. -/
  answer : ∀ op, ((r.run ops).perform op).1 = op.target.bind (r.run ops).consumer
  /-- It writes this entry. -/
  written : ∀ op c, op.target = some c →
    ((r.run ops).perform op).2.consumer c = op.write ((r.run ops).consumer c)
  /-- It leaves the others. -/
  untouched : ∀ op c, op.target ≠ some c →
    ((r.run ops).perform op).2.consumer c = (r.run ops).consumer c
  /-- A word with both kind bits goes to nobody. -/
  special : ∀ w : UInt32, w.toNat / 2 ^ 26 % 4 = 3 → (r.run ops).route w = none
  /-- Any other word goes to the consumer of its top four bits. -/
  route : ∀ (w : UInt32) (c : Channel), w.toNat / 2 ^ 26 % 4 ≠ 3 → c.val = w.toNat / 2 ^ 28 →
    (r.run ops).route w = ((r.run ops).consumer c).map fun a => (c, a)
  /-- So it goes where its header says. -/
  header : ∀ w, ((r.run ops).route w).map Prod.snd =
    (Header.ofWord w).route.bind (r.run ops).consumer
  /-- The channels with a consumer are listed, each once and in order. -/
  channels : ∀ c, c ∈ (r.run ops).channels ↔ ((r.run ops).consumer c).isSome
  ordered : (r.run ops).channels.Pairwise (· < ·)

theorem tabulates (r : Router α) (ops : List (Operation α)) : r.Tabulates ops where
  entry := r.consumer_run ops
  answer := (r.run ops).answer_perform
  written op c h := by rw [consumer_perform, if_pos h]
  untouched op c h := by rw [consumer_perform, if_neg h]
  special w h := by rw [Router.route, if_pos ((Word.isSpecial_iff w).mpr h)]
  route w c h hc := by
    obtain rfl : c = Channel.ofWord w := Fin.ext hc
    rw [Router.route, if_neg (fun hs => h ((Word.isSpecial_iff w).mp hs))]
  header := (r.run ops).route_eq
  channels _ := mem_channels
  ordered := (r.run ops).pairwise_channels

/-! ## Queues -/

/-- Every consumer is a queue, and the header of each message takes the message there. -/
def sortFrames (q : Router (List Message)) (fs : List Frame) : Router (List Message) :=
  q.run (fs.map fun f => .route f.encoded.header (· ++ [f.message]))

/-- What the queues hold in the end. -/
structure Demultiplexed (q : Router (List Message)) (fs : List Frame) : Prop where
  /-- A queue is given the messages of its channel, in order, and a channel without a queue
  gets none. -/
  queue : ∀ c, (q.sortFrames fs).consumer c = (q.consumer c).map fun queue =>
    queue ++ (fs.map Frame.message).filter fun m => m.channel = some c
  /-- No special command goes anywhere, whoever is registered. -/
  special : ∀ f ∈ fs, f.message.channel = none →
    ∀ r : Router (List Message), r.route f.encoded.header = none

theorem consumer_sortFrames (q : Router (List Message)) (fs : List Frame) (c : Channel) :
    (q.sortFrames fs).consumer c = (q.consumer c).map fun queue =>
      queue ++ (fs.map Frame.message).filter fun m => m.channel = some c := by
  rw [sortFrames, consumer_run]
  generalize q.consumer c = entry
  induction fs generalizing entry with
  | nil => simp [Operation.writeAll]
  | cons f fs ih =>
      rw [List.map_cons, Operation.writeAll_cons, ih, Operation.target, f.route_header]
      by_cases hc : f.message.channel = some c
      · simp [hc, Operation.write, Function.comp_def]
      · simp [hc]

/-- After any operations a router is a table of 16 entries, and its queues sort any stream
of messages by channel. -/
theorem demultiplexed_run (r : Router α) (ops : List (Operation α)) (q : Router (List Message))
    (fs : List Frame) : r.Tabulates ops ∧ q.Demultiplexed fs := by
  refine ⟨r.tabulates ops, q.consumer_sortFrames fs, fun f _ hnone r => ?_⟩
  have hroute := r.route_eq f.encoded.header
  rw [f.route_header, hnone] at hroute
  exact Option.map_eq_none_iff.mp hroute

end Router

end WordFifo
