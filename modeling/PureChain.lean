import PureChain.Types
import PureChain.FanIn
import PureChain.BlockValidator
import PureChain.GasLimit
import PureChain.GasLimitControl
import PureChain.Inihash
import PureChain.Bootnodes
