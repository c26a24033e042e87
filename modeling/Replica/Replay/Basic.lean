import Replica.Exchange.Run
import Replica.MessageFile
import Replica.Subscriber.Config
/-! Applying a file of messages to an empty store through a bus and a consumer, and the report about
what became of it. -/
namespace Replica

/-- How a file is applied. -/
structure ReplayOptions where
  /-- The report lists deleted records too. -/
  includeDeleted : Bool := false
  /-- Each message reaches its end before the next is sent. -/
  sequential : Bool := false
  /-- How long messages caused by a change wait, if not as the subscriber says. -/
  organicWait : Option Duration := none
  /-- How long messages that were asked for wait, if not as the subscriber says. -/
  forceSyncWait : Option Duration := none
  deriving DecidableEq

/-- What became of a file. -/
structure ReplayReport where
  /-- The records in the end. -/
  records : List Record
  /-- The messages set aside. -/
  letters : List DeadLetter
  /-- How many lines held a message. -/
  lines : Nat
  /-- How many of them could not be read. -/
  undecodable : Nat
  /-- The counters of the consumer. -/
  stats : Stats
  /-- How long it took. -/
  took : Duration
  deriving DecidableEq

namespace Replay

open Subscriber (Config)

/-- How long messages wait. -/
def budget (config : Config) (options : ReplayOptions) : WaitBudget :=
  { config.budget with
    organic := options.organicWait.getD config.budget.organic
    forceSync := options.forceSyncWait.getD config.budget.forceSync }

/-- The consumer and the bus that the messages go through. -/
def setup (config : Config) (options : ReplayOptions) : Exchange.Setup Store :=
  { consumer :=
      { registry := config.registry
        budget := budget config options
        maxConcurrency := config.concurrency
        backend := Store.backend } }

/-- How many deliveries may be on the line. -/
def capacity : Nat := 256

/-- The records of all kinds that have a handler, by kind and id. -/
def collect (registry : Registry) (records : Records) (includeDeleted : Bool) : List Record :=
  (SortedMap.keys registry).flatMap fun kind => records.ofKind kind includeDeleted

/-- Sends messages one after another; sequentially, each reaches its end first. -/
def sendAll (setup : Exchange.Setup Store) (fuel : Nat) (sequential : Bool) :
    List Message → ExchangeRun Store → Option (ExchangeRun Store)
  | [], run => some run
  | m :: messages, run => do
    let (_, run) := run.send m
    let run ← if sequential then run.settled setup fuel else some run
    sendAll setup fuel sequential messages run

/-- The exchange with the consumer receiving, before any message. -/
def opened (setup : Exchange.Setup Store) : ExchangeRun Store :=
  (ExchangeRun.start {} (.ofCapacity capacity)).receive setup

/-- The exchange after all messages have reached their ends and the consumer has finished. -/
def finalRun (setup : Exchange.Setup Store) (fuel : Nat) (sequential : Bool)
    (messages : List Message) : Option (ExchangeRun Store) := do
  let run ← sendAll setup fuel sequential messages (opened setup)
  let run ← run.settled setup fuel
  (run.hangUp setup).runUntil setup fuel (·.receiverEnd.isSome)

/-- Applies the messages of a file; none if `fuel` steps do not suffice somewhere or a dispatch
reaches beyond the end of the clock. -/
def run (fuel : Nat) (config : Config) (options : ReplayOptions) (lines : List MessageLine) :
    Option ReplayReport := do
  let messages := MessageFile.messages lines
  let final ← finalRun (setup config options) fuel options.sequential messages
  let desk := final.shared.desk
  return {
    records := collect config.registry desk.store.records options.includeDeleted
    letters := desk.letters
    lines := lines.length
    undecodable := lines.length - messages.length
    stats := desk.stats
    took := final.now }

end Replay

end Replica
