import LocalNet.Config.Node
import LocalNet.Files.Tree
import LocalNet.Names
import LocalNet.Process.LaunchConfig
import LocalNet.Text.Quoted
import LocalNet.Log.Event

/-!
Staging: before a node's binary is run, the node's files are written into a directory of its own,
and flags tell the binary where they are.
-/

namespace LocalNet

open Files

inductive StagingStep where
  | directory (context path : String)
  | file (context path : String) (content : Bytes)
  deriving DecidableEq, Repr

namespace StagingStep

def context : StagingStep → String
  | .directory context _ => context
  | .file context _ _ => context

def perform (tree : Tree) (base : Place) : StagingStep → Except IoFault Unit × Tree
  | .directory _ path => tree.makeDirectories base path
  | .file _ path content => tree.write base path content

end StagingStep

namespace Staging

def configPath (directory : String) : String :=
  Path.join directory "config.json"

def genesisPath (directory : String) : String :=
  Path.join directory "genesis.json"

def chainConfigsPath (directory : String) : String :=
  Path.join directory "chainConfigs"

def cChainPath (directory : String) : String :=
  Path.join (chainConfigsPath directory) "C"

def certPath (directory : String) : String :=
  Path.join directory "staking.crt"

def keyPath (directory : String) : String :=
  Path.join directory "staking.key"

def writing (path : String) : String :=
  "writing " ++ Text.quoted path

def steps (config : NodeConfig) (directory : String) : List StagingStep :=
  [.directory ("creating node directory " ++ Text.quoted directory) directory,
    .file (writing (configPath directory)) (configPath directory) config.configFile,
    .file (writing (genesisPath directory)) (genesisPath directory) config.genesisFile] ++
  (if config.cChainConfigFile.isEmpty then []
  else
    [.directory ("creating " ++ Text.quoted (cChainPath directory)) (cChainPath directory),
      .file "writing C-Chain config" (Path.join (cChainPath directory) "config.json")
        config.cChainConfigFile]) ++
  (if config.hasStakingMaterial then
    [.file "writing staking cert" (certPath directory) config.stakingCert,
      .file "writing staking key" (keyPath directory) config.stakingKey]
  else [])

def flags (config : NodeConfig) (directory : String) : List String :=
  ["--config-file=" ++ configPath directory, "--genesis=" ++ genesisPath directory] ++
  (if config.cChainConfigFile.isEmpty then []
  else ["--chain-config-dir=" ++ chainConfigsPath directory]) ++
  (if config.hasStakingMaterial then
    ["--staking-tls-cert-file=" ++ certPath directory,
      "--staking-tls-key-file=" ++ keyPath directory]
  else [])

/-- Performs steps up to the first that fails. What was made before stays. -/
def perform (tree : Tree) (base : Place) : List StagingStep → Except String Unit × Tree
  | [] => (.ok (), tree)
  | step :: rest =>
    match step.perform tree base with
    | (.error reason, left) => (.error (step.context ++ ": " ++ reason.message), left)
    | (.ok (), next) => perform next base rest

end Staging

end LocalNet
