import Eav7.Base.OrdMap
import Eav7.Base.Fallible
import Eav7.Base.Binary64
import Eav7.Base.Keccak
import Eav7.Config
import Eav7.Json
import Eav7.Coercao
import Eav7.Types
import Eav7.Cripto
import Eav7.State
import Eav7.Block
import Eav7.Recursos
import Eav7.Value
import Eav7.TokenTx
import Eav7.NftTx
import Eav7.Permissao
import Eav7.Contracts
import Eav7.Ambiente
import Eav7.GovTx
import Eav7.Multisig
import Eav7.BridgeTx
import Eav7.AiTx
import Eav7.EavmTx
import Eav7.Aplicacao
import Eav7.BlockTick
import Eav7.Leaves
import Eav7.Blockchain
import Eav7.Consenso
import Eav7.Indices
import Eav7.Historia
import Eav7.Operacoes
import Eav7.Coerencia
import Eav7.Carga
import Eav7.Corrida
import Eav7.Ideal
import Eav7.Codificacao
import Eav7.Crescimento
import Eav7.RedeIdeal
import Eav7.Bifurcacao
import Eav7.FalhasDoDisco
import Eav7.Finalidade
import Eav7.Follow
import Eav7.P2p
import Eav7.Producer
import Eav7.Malha
import Eav7.Eavm.Palavra
import Eav7.Eavm.Precompiles
import Eav7.Eavm.Rlp
import Eav7.Eavm.Envelope
import Eav7.Eavm.Vm
import Eav7.Eavm.Host
import Eav7.Eavm.Gas
import Eav7.Eavm.Instrucoes
import Eav7.Eavm.Contas
import Eav7.Eavm.Regra
import Eav7.Base.Diario
import Eav7.Eavm.Isolamento
import Eav7.Eavm.Rastro
import Eav7.Eavm.MundoDoEstado
import Eav7.Eavm.Sessao
import Eav7.Eavm.Conservacao
import Eav7.Eavm.Garantias
import Eav7.Base.Invariante
import Eav7.Pegada
import Eav7.PegadaDoBloco
import Eav7.Guarda
import Eav7.Endossos
import Eav7.Timelock
import Eav7.Base.Percurso
import Eav7.Base.Linhas
import Eav7.Base.Merkle
import Eav7.Canonica
import Eav7.Base.Janela
import Eav7.Execucao
import Eav7.TxIdeal
import Eav7.Ponte
import Eav7.Base.Separador
import Eav7.Comite
import Eav7.Repasse
import Eav7.Base.Lancamentos
import Eav7.Tarefas
import Eav7.Custodia
import Eav7.Roteiro
import Eav7.Ciclo
import Eav7.Compromisso
import Eav7.Prova
import Eav7.ProvaServida
import Eav7.Honesto
import Eav7.Pares
import Eav7.Equivocacao
import Eav7.Decodificacao
import Eav7.LeituraJson
import Eav7.IdaEVolta
import Eav7.Linha
import Eav7.Armazem
import Eav7.Base.Arredondamento
import Eav7.Eavm.RlpCanonico
import Eav7.Eavm.Conferencia
import Eav7.Eavm.Carteira
import Eav7.Eavm.Maleavel
import Eav7.EfeitoDoId
import Eav7.Base.Razao
import Eav7.Livro
import Eav7.Suprimento
import Eav7.Colecoes
import Eav7.Controle
import Eav7.AntiTrava
import Eav7.Base.Reentrancia
import Eav7.Base.Solidity
import Eav7.Vaults.SaleVault
import Eav7.Eavm.Complemento
import Eav7.Eavm.Copia
import Eav7.Eavm.Fronteiras
import Eav7.Eavm.RlpSemPanico
import Eav7.CoercaoFiel
import Eav7.Cronograma
import Eav7.Allowances
import Eav7.Base.Registros
import Eav7.Sidecars
import Eav7.Eavm.Assinado
import Eav7.Base.Tentativas
import Eav7.Mempool
import Eav7.Base.Bits
import Eav7.Base64
import Eav7.Eavm.Memoria
import Eav7.Vaults.SaleRelayer
import Eav7.Vaults.EAV20Managed
import Eav7.Sdk.Relayer
import Eav7.Base.Fatias
import Eav7.Lote
import Eav7.Orfas
import Eav7.Base.Arestas
import Eav7.Delegacoes
import Eav7.Penalidade
import Eav7.Base.Acumulador
import Eav7.Votacao
import Eav7.Quadro
import Eav7.Base.Extrato
import Eav7.Apuracao
import Eav7.Recompensas
import Eav7.Prazos
