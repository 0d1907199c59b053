import WordFifo.Message

/-!
# Routing by channel

A router is a table from channels to consumers.  It looks at the channel field
of a header alone and leaves the kind to the consumer.  A special command goes
to nobody, whatever its channel field holds.
-/

namespace WordFifo

/-- The consumer of each channel that has one. -/
structure Router (α : Type) where
  consumer : Channel → Option α

namespace Router

variable {α : Type}

/-- The router without consumers. -/
def empty : Router α := ⟨fun _ => none⟩

/-- The router with the entry of one channel replaced. -/
def set (r : Router α) (c : Channel) (entry : Option α) : Router α :=
  ⟨fun c' => if c' = c then entry else r.consumer c'⟩

/-- Gives a channel a consumer.  The answer is the one it replaces. -/
def register (r : Router α) (c : Channel) (a : α) : Option α × Router α :=
  (r.consumer c, r.set c (some a))

/-- Takes the consumer of a channel away. -/
def unregister (r : Router α) (c : Channel) : Option α × Router α :=
  (r.consumer c, r.set c none)

/-- Whether a channel has a consumer. -/
def isRegistered (r : Router α) (c : Channel) : Bool := (r.consumer c).isSome

/-- Changes the consumer of a channel, if it has one. -/
def modify (r : Router α) (c : Channel) (f : α → α) : Router α := r.set c ((r.consumer c).map f)

/-- The channels with a consumer, in order. -/
def channels (r : Router α) : List Channel := Channel.all.filter r.isRegistered

/-- The consumer a header word goes to, with its channel. -/
def route (r : Router α) (w : UInt32) : Option (Channel × α) :=
  if Word.isSpecial w then none
  else (r.consumer (Channel.ofWord w)).map fun a => (Channel.ofWord w, a)

/-- Changes the consumer that a header word goes to. -/
def deliver (r : Router α) (w : UInt32) (f : α → α) : Router α :=
  if Word.isSpecial w then r else r.modify (Channel.ofWord w) f

/-- A line that names the registered channels. -/
def describe (r : Router α) : String :=
  let ids := r.channels.map fun c => Digits.decimal c.val
  "ChannelRouter \x7b channels: [" ++ ", ".intercalate ids ++ "] \x7d"

@[simp] theorem consumer_set (r : Router α) (c c' : Channel) (entry : Option α) :
    (r.set c entry).consumer c' = if c' = c then entry else r.consumer c' := rfl

theorem mem_channels {r : Router α} {c : Channel} : c ∈ r.channels ↔ r.isRegistered c := by
  simp [channels, Channel.all]

end Router

end WordFifo
