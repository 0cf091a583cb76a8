import ForkWatch.Log
import ForkWatch.Retry
import ForkWatch.Span
import ForkWatch.Word

/-! # Watcher settings -/

namespace ForkWatch

/-- How many headers a poll asks for: those of blocks with logs or history, or all in range. -/
inductive PollPolicy where
  | cheap
  | thorough
  deriving DecidableEq, Repr

def PollPolicy.text : PollPolicy → String
  | cheap => "cheap"
  | thorough => "thorough"

structure Config where
  id : String := "default"
  chain : String := "ethereum"
  startBlock : UInt64 := 0
  scanWidth : UInt64 := 100
  maxWalkBacks : UInt64 := 5
  loopIntervalSecs : UInt64 := 4
  pollPolicy : PollPolicy := .cheap
  logLevel : String := "info"
  fetchAttempts : UInt32 := 3
  fetchDelayMs : UInt64 := 500
  filter : LogFilter := {}
  deriving DecidableEq, Repr

namespace Config

/-- Refuses settings that a watcher cannot run with. -/
def check (c : Config) : Except WatchError Unit :=
  if c.scanWidth = 0 then .error (.config "scan_width must be at least 1")
  else if c.fetchAttempts = 0 then .error (.config "fetch_retries must be at least 1")
  else if c.id.isEmpty || c.chain.isEmpty then
    .error (.config "id and chain must not be empty")
  else .ok ()

def limits (c : Config) : ScanLimits where
  startBlock := c.startBlock
  scanWidth := c.scanWidth
  maxRetries := c.maxWalkBacks

def loopInterval (c : Config) : Duration := .ofSecs c.loopIntervalSecs

/-- The delay between fetch attempts. -/
def fetchDelay (c : Config) : Duration := .ofMillis c.fetchDelayMs

def retryPolicy (c : Config) : RetryPolicy := .of c.fetchAttempts c.fetchDelay

/-- Views below this number may be forgotten once a window from `fromBlock` is acknowledged. -/
def retention (c : Config) (fromBlock : UInt64) : UInt64 := Word.satSub fromBlock c.scanWidth

/-- One choice in the making of a configuration. -/
inductive Choice where
  | id (v : String)
  | chain (v : String)
  | startBlock (v : UInt64)
  | scanWidth (v : UInt64)
  | maxWalkBacks (v : UInt64)
  | loopIntervalSecs (v : UInt64)
  | pollPolicy (v : PollPolicy)
  | logLevel (v : String)
  | fetchRetry (attempts : UInt32) (delayMs : UInt64)
  | filter (v : LogFilter)
  deriving DecidableEq, Repr

def choose (c : Config) : Choice → Config
  | .id v => { c with id := v }
  | .chain v => { c with chain := v }
  | .startBlock v => { c with startBlock := v }
  | .scanWidth v => { c with scanWidth := v }
  | .maxWalkBacks v => { c with maxWalkBacks := v }
  | .loopIntervalSecs v => { c with loopIntervalSecs := v }
  | .pollPolicy v => { c with pollPolicy := v }
  | .logLevel v => { c with logLevel := v }
  | .fetchRetry attempts delayMs => { c with fetchAttempts := attempts, fetchDelayMs := delayMs }
  | .filter v => { c with filter := v }

/-- The defaults with choices made in order, if a watcher can run with them. -/
def build (choices : List Choice) : Except WatchError Config :=
  let c := choices.foldl choose {}
  c.check.map fun _ => c

end Config

end ForkWatch
