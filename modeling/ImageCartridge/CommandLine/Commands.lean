import ImageCartridge.Cartridge.File
import ImageCartridge.CommandLine.Action
import ImageCartridge.Manifest
import ImageCartridge.Player.Basic

/-! The commands of the program: build a cartridge into an image, inspect a
file, and play one. -/
namespace ImageCartridge.CommandLine

open Text

def defaultFrames : Nat := 100

def textLines (lines : List String) : String :=
  String.join (lines.map (· ++ "\n"))

def usage (program : String) : String :=
  textLines [
    "pixelcart - runnable cartridges inside JPEG images",
    "",
    "Usage:",
    "  " ++ program ++ " [--config file.toml] build <base.jpg> <manifest.toml> <out.jpg>",
    "  " ++ program ++ " [--config file.toml] inspect <file.jpg>",
    "  " ++ program ++ " [--config file.toml] play <file.jpg> [--frames N]",
    "",
    "Config is read from --config, then $PIXELCART_CONFIG, then built-in defaults.",
    "--frames only applies when no interactive terminal is available."]

/-- A number of frames: decimal digits, perhaps behind a plus sign, that fit
four bytes. -/
def frames? (text : String) : Option Nat :=
  let digits := match text.toList with
    | '+' :: rest => rest
    | chars => chars
  if digits.isEmpty || !digits.all Char.isDigit then none
  else
    let n := digits.foldl (fun n c => n * 10 + (c.toNat - '0'.toNat)) 0
    if n < UInt32.size then some n else none

def readFile (path : String) (next : Bytes → Action) : Action :=
  .read path fun
    | .ok content => next content
    | .error cause =>
        .finish (.failed (.sentence ("Cannot read '" ++ path ++ "': " ++ cause.message)))

def readManifest (path : String) (next : String → Action) : Action :=
  let refuse := fun reason =>
    Action.finish (.failed (.sentence ("Cannot read manifest '" ++ path ++ "': " ++ reason)))
  .read path fun
    | .ok content =>
        match Utf8.decode? content with
        | some text => next text
        | none => refuse "stream did not contain valid UTF-8"
    | .error cause => refuse cause.message

def loadConfig (explicit environment : Option String) (next : Config → Action) : Action :=
  let continueWith := fun
    | .ok config => next config
    | .error (cause : ConfigError) => Action.finish (.failed (.failure cause.message))
  match explicit <|> environment with
  | none => continueWith (Config.load none none)
  | some path =>
      .read path fun content =>
        continueWith (Config.load (some (content.toOption.bind Utf8.decode?)) none)

/-- Build a cartridge from a manifest into a copy of an image. -/
def build (base manifest out : String) : Action :=
  readFile base fun jpeg =>
    readManifest manifest fun text =>
      match (do (← Manifest.ofText text).toCartridge) with
      | .error cause => .finish (.failed (.failure cause.message))
      | .ok cartridge =>
          match cartridge.writeInto jpeg with
          | .error cause => .finish (.failed (.failure cause.message))
          | .ok bytes =>
              .write out bytes fun
                | .ok () => .finish {}
                | .error cause => .finish (.failed (.failure cause.message))

def padRight (width : Nat) (s : String) : String :=
  s ++ String.ofList (List.replicate (width - s.length) ' ')

def reason (cause : CartridgeError) : String :=
  cause.errorClass.name ++ ": " ++ cause.message

def notRunnable (cause : CartridgeError) : String :=
  "not runnable (" ++ cause.errorClass.name ++ "): " ++ cause.message

def blockLine (b : Block) : String :=
  "  " ++ padRight 12 b.kind.name ++ s!" v{b.version.toNat} flags="
    ++ Hex.number 2 b.flags.bits.toNat ++ s!" {b.payload.length} bytes"

def cartridgeText (c : Cartridge) : String :=
  let regions := match c.truthTable with
    | some table => [s!"truth table:  {table.size} regions"]
    | none => []
  let texts := match c.stringTable with
    | some table => table.toList.map fun entry =>
        "string:       " ++ entry.1 ++ " = " ++ Quoted.encode entry.2
    | none => []
  "\n" ++ c.header.display
    ++ textLines ([s!"bytecode:     {c.bytecode.length} bytes"] ++ regions ++ texts)

/-- The report of a file: its blocks, and the cartridge they make up. -/
def inspection (file : String) (jpeg : Bytes) (config : Config) : String :=
  match Marker.extract jpeg config.limits.maxCartridgeBytes with
  | .error cause => textLines [file ++ ": " ++ notRunnable cause]
  | .ok blocks =>
      textLines (s!"{file}: {blocks.length} cartridge block(s)" :: blocks.map blockLine)
        ++ match Cartridge.ofBlocks blocks with
          | .ok cartridge => cartridgeText cartridge
          | .error cause => textLines [notRunnable cause]

/-- Report what a file carries. A file that cannot be run is no failure. -/
def inspect (file : String) (config : Config) : Action :=
  readFile file fun jpeg => .finish { output := inspection file jpeg config }

def finalText (session : Player.Session) : String :=
  let board := match session.player.game? with
    | some game => Snake.boardLines game ++ [Snake.statusLine game]
    | none => []
  textLines (board ++ session.hosts.map fun host =>
    "host command not supported by this frontend: " ++ host.name)

def play (file : String) (config : Config) (frames : Nat) : Action :=
  readFile file fun jpeg =>
    match Frontend.create config.display.mode frames with
    | .error cause => .finish (.failed (.failure cause.text))
    | .ok frontend =>
        let (player, observer) := Player.openFile jpeg config.limits frontend.observer
        match player.mode with
        | .inert cause =>
            .finish { output :=
              textLines [file ++ ": plain image, nothing to run (" ++ reason cause ++ ")"] }
        | .interactive _ _ =>
            .finish { output := finalText (player.run { frontend with observer }) }

/-- A configuration file named before the command, and what follows it. -/
def splitConfig : List String → Option String × List String
  | "--config" :: path :: rest => (some path, rest)
  | args => (none, args)

/-- Carry out the command of an argument list. No command at all is a request
for help; a command without meaning is an error, but only once the
configuration has been read. -/
def run (program : String) (args : List String) (environment : Option String) : Action :=
  let (explicit, args) := splitConfig args
  match args with
  | [] => .finish { output := usage program }
  | command :: operands =>
      loadConfig explicit environment fun config =>
        match command, operands with
        | "build", [base, manifest, out] => build base manifest out
        | "inspect", [file] => inspect file config
        | "play", [file] => play file config defaultFrames
        | "play", [file, "--frames", n] =>
            match frames? n with
            | some frames => play file config frames
            | none => .finish (.failed (.sentence ("Invalid frame count: " ++ n)))
        | _, _ => .finish { status := 2, output := usage program }

end ImageCartridge.CommandLine
